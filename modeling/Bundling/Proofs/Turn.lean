import Bundling.Coordinator.Call
import Bundling.Proofs.Registrations

/-!
What one stretch of a call that holds the lock can do. `Turn` lists every outcome, with the checks
that lead to it and with the coordinator it leaves behind up to the notices it has added. A stretch
that closes nothing more ends as `Parting` says, one that is left with results to emit as `Emission`
says, and one that goes on to release the unit as `Departure` says. `Joins` tells how a call that is
not turned away comes to stand in line for the lock. Every invariant of a run is a case analysis
over these outcomes.
-/

set_option autoImplicit false
set_option relaxedAutoImplicit false

namespace Bundling

namespace Request

variable {α : Type}

/-- What a close is put down to when this request makes it. -/
def trigger? : Request α → Option Trigger
  | watermark w => if w.isTerminal then some .terminalWatermark else none
  | barrier _ => some .barrier
  | endInput => some .endOfInput
  | finish trigger => some trigger
  | checkAge | tick => some .bundleAge
  | stop => some .stop
  | start | submit _ | shutdown => none

/-- A request that is answered once no bundle is in flight any more. -/
def Drains (q : Request α) : Prop := q = .endInput ∨ ∃ id, q = .barrier id

/-- The checks made under the lock. -/
def Admitted (c : Coordinator) : Request α → Prop
  | start => c.phase = .created ∧ c.hasUnit = true
  | submit _ | watermark _ => c.latched = none ∧ c.phase = .running ∧ c.hasUnit = true
  | checkAge | tick => c.phase = .running ∧ c.isExpired = true
  | _ => True

/-- The failure of a call that must not submit, or bring a watermark, now. -/
def refusalTo? (doing : String) (c : Coordinator) : Option Failure :=
  match c.running doing with
  | .error f => some f
  | .ok _ => if c.hasUnit then none else some (.refused (.released doing))

/-- The failure with which a call is turned away under the lock. -/
def refusal? (c : Coordinator) : Request α → Option Failure
  | start =>
    if c.phase ≠ .created then some (.refused (.cannotStart c.phase))
    else if c.hasUnit then none else some (.refused .nothingToOpen)
  | submit _ => refusalTo? "submit" c
  | watermark _ => refusalTo? "process watermark" c
  | _ => none

/-- The reply of a call whose close has ended well. -/
def verdict (closed : Bool) : Request α → Reply
  | finish _ | checkAge => .flag closed
  | _ => .done

end Request

/-- What a release comes to: the failure of the close before it comes first, then those of the
timer and the unit. -/
def Release.reply (r : Release) (unitFailure : Option Failure) : Reply :=
  match Coordinator.shutdownFailures r unitFailure with
  | [] => Coordinator.failedOr r.closeFailure
  | failures => .failed (r.closeFailure.getD (.shutdown failures))

/-- A release that comes to nothing but its end has given up its registration without a failure. -/
theorem Release.timerFailure_of_done {r : Release} {unitFailure : Option Failure}
    (h : r.reply unitFailure = .done) : r.timerFailure = none := by
  unfold Release.reply Coordinator.shutdownFailures at h
  cases htimer : r.timerFailure with
  | none => rfl
  | some f =>
    rw [htimer] at h
    cases h

namespace Coordinator

variable {α β : Type}

/-! ### Releasing the unit -/

/-- What a close has failed with. -/
def closeFailure : Except Failure Bool → Option Failure
  | .ok _ => none
  | .error f => some f

/-- What the unit has reported when it was closed. -/
def unitFailure : Except Failure (List β) → Option Failure
  | .ok _ => none
  | .error f => some f

/-- The coordinator as a release leaves it before it asks for the lock: stopped, its registration
given up. -/
def ceased (c : Coordinator) : Coordinator :=
  ({ c with phase := .stopped } : Coordinator).cancelRegistration.2

def releaseOf (c : Coordinator) (closeFailure : Option Failure) : Release :=
  ⟨c.phase, closeFailure, ({ c with phase := .stopped } : Coordinator).cancelRegistration.1⟩

/-- Giving up the registration touches the timer and the registration only. -/
theorem cancelRegistration_eq (c : Coordinator) : ∃ (timer : Timer) (notices : List Notice),
    c.cancelRegistration.2 =
      { c with timer := timer, registration := none, notices := notices } := by
  unfold cancelRegistration
  split
  case h_1 hnone => exact ⟨c.timer, c.notices, by cases c; simp_all⟩
  case h_2 index _ =>
    dsimp only
    split <;> exact ⟨_, _, rfl⟩

/-- The timer, and the failure, are those of the registration that is given up. -/
theorem cancelRegistration_timer (c : Coordinator) :
    (c.cancelRegistration.1, c.cancelRegistration.2.timer) =
      c.timer.relinquish c.registration := by
  unfold cancelRegistration
  split
  case h_1 hnone => rw [hnone]; rfl
  case h_2 index hsome =>
    rw [hsome]
    unfold Timer.relinquish
    dsimp only
    obtain ⟨result, timer, notices⟩ := c.timer.cancel index
    cases result <;> rfl

theorem ceased_eq (c : Coordinator) : ∃ (timer : Timer) (notices : List Notice),
    c.ceased = { c with
      phase := .stopped, timer := timer, registration := none, notices := notices } :=
  cancelRegistration_eq { c with phase := .stopped }

@[simp] theorem ceased_phase (c : Coordinator) : c.ceased.phase = .stopped := by
  obtain ⟨_, _, h⟩ := ceased_eq c
  rw [h]

@[simp] theorem ceased_slot (c : Coordinator) : c.ceased.slot = c.slot := by
  obtain ⟨_, _, h⟩ := ceased_eq c
  rw [h]

@[simp] theorem ceased_tally (c : Coordinator) : c.ceased.tally = c.tally := by
  obtain ⟨_, _, h⟩ := ceased_eq c
  rw [h]

@[simp] theorem ceased_hasUnit (c : Coordinator) : c.ceased.hasUnit = c.hasUnit := by
  obtain ⟨_, _, h⟩ := ceased_eq c
  rw [h]

@[simp] theorem ceased_policy (c : Coordinator) : c.ceased.policy = c.policy := by
  obtain ⟨_, _, h⟩ := ceased_eq c
  rw [h]

@[simp] theorem ceased_lock (c : Coordinator) : c.ceased.lock = c.lock := by
  obtain ⟨_, _, h⟩ := ceased_eq c
  rw [h]

@[simp] theorem ceased_registration (c : Coordinator) : c.ceased.registration = none := by
  obtain ⟨_, _, h⟩ := ceased_eq c
  rw [h]

theorem ceased_timer (c : Coordinator) :
    c.ceased.timer = (c.timer.relinquish c.registration).2 :=
  congrArg Prod.snd (cancelRegistration_timer { c with phase := .stopped })

theorem timerFailure_releaseOf (c : Coordinator) (f : Option Failure) :
    (c.releaseOf f).timerFailure = (c.timer.relinquish c.registration).1 :=
  congrArg Prod.fst (cancelRegistration_timer { c with phase := .stopped })

@[simp] theorem ceased_latched (c : Coordinator) : c.ceased.latched = c.latched := by
  obtain ⟨_, _, h⟩ := ceased_eq c
  rw [h]

/-- How a release ends: the lock is given up, and the open flag falls. -/
theorem settleRelease_eq (c : Coordinator) (r : Release) (f : Option Failure) :
    ∃ notices : List Notice, (c.settleRelease r f : Coordinator × Stage α β) =
      ({ c with slot := c.slot.tryClose.2, notices := notices }).leave (r.reply f) := by
  unfold settleRelease Release.reply
  dsimp only
  cases c.unlock.slot.isOpen <;> cases shutdownFailures r f <;> exact ⟨_, rfl⟩

/-- The coordinator once a call has asked for the lock. -/
def inLine (c : Coordinator) (i : Nat) : Coordinator := { c with lock := (c.lock.ask i).2 }

/-- What becomes of a call that does not hold the lock and turns to releasing the unit. -/
inductive Departure (i : Nat) (f : Option Failure) (c : Coordinator) :
    Coordinator × Stage α β → Prop
  | already (hphase : c.phase = .stopped) : Departure i f c (c, .ended (failedOr f))
  | waits (hphase : c.phase ≠ .stopped) (hlock : c.lock.holder ≠ none) :
      Departure i f c (c.ceased.inLine i, .queuedToRelease (c.releaseOf f))
  | takes (hphase : c.phase ≠ .stopped) (hlock : c.lock.holder = none) (hunit : c.hasUnit = true) :
      Departure i f c ({ c.ceased.inLine i with hasUnit := false }, .closingUnit (c.releaseOf f))
  | settles (notices : List Notice) (reply : Reply) (hphase : c.phase ≠ .stopped)
      (hlock : c.lock.holder = none) (hunit : c.hasUnit = false)
      (hreply : reply = (c.releaseOf f).reply none) :
      Departure i f c
        (({ c.ceased.inLine i with slot := c.slot.tryClose.2, notices := notices }).leave reply)

theorem departure_beginRelease (c : Coordinator) (i : Nat) (f : Option Failure) :
    Departure i f c (c.beginRelease i f : Coordinator × Stage α β) := by
  unfold beginRelease
  split
  case isTrue hphase => exact .already hphase
  case isFalse hphase =>
    change Departure i f c (c.ceased.askToRelease i (c.releaseOf f))
    have hask : c.ceased.askToRelease i (c.releaseOf f) =
        if c.lock.holder = none then (c.ceased.inLine i).enterRelease (c.releaseOf f)
        else ((c.ceased.inLine i, .queuedToRelease (c.releaseOf f)) : Coordinator × Stage α β) := by
      unfold askToRelease inLine
      rw [ceased_lock]
      cases hlock : c.lock.holder <;> simp [Lock.ask, hlock]
    rw [hask]
    split
    case isFalse hlock => exact .waits hphase hlock
    case isTrue hlock =>
      unfold enterRelease
      split
      case isTrue hunit => exact .takes hphase hlock ((ceased_hasUnit c).symm.trans hunit)
      case isFalse hunit =>
        have hgone : c.hasUnit = false := by
          rw [← ceased_hasUnit c]
          exact Bool.eq_false_iff.mpr hunit
        obtain ⟨notices, hsettle⟩ :=
          settleRelease_eq (α := α) (β := β) (c.ceased.inLine i) (c.releaseOf f) none
        have hslot : (c.ceased.inLine i).slot = c.slot := ceased_slot c
        rw [hsettle, hslot]
        exact .settles notices _ hphase hlock hgone rfl

/-! ### After a close -/

/-- What becomes of a call that holds the lock once its close is over. -/
inductive Parting (i : Nat) (q : Request α) (c : Coordinator) :
    Except Failure Bool → Coordinator × Stage α β → Prop
  | forwards (w : Watermark) (closed : Bool) (hq : q = .watermark w) :
      Parting i q c (.ok closed) (c, .forwarding w)
  | answers (notices : List Notice) (closed : Bool) (hstop : q ≠ .stop)
      (hmark : ∀ w, q ≠ .watermark w) :
      Parting i q c (.ok closed) (({ c with notices := notices }).leave (q.verdict closed))
  | fails (f : Failure) (hstop : q ≠ .stop) (htick : q ≠ .tick) :
      Parting i q c (.error f) (c.leave (.failed f))
  | latches (notices : List Notice) (f : Failure) (hq : q = .tick) :
      Parting i q c (.error f) ((({ c with notices := notices }).latch f).leave .done)
  | departs (notices : List Notice) (f : Option Failure) (result : Except Failure Bool)
      (out : Coordinator × Stage α β) (hq : q = .stop)
      (hresult : f = closeFailure result)
      (h : Departure i f ({ c with notices := notices }).unlock out) : Parting i q c result out

theorem parting_afterClose (c : Coordinator) (i : Nat) (q : Request α)
    (result : Except Failure Bool) :
    Parting i q c result (c.afterClose i q result : Coordinator × Stage α β) := by
  cases result with
  | ok closed =>
    cases q with
    | watermark w => exact .forwards w closed rfl
    | stop => exact .departs c.notices none _ _ rfl rfl (departure_beginRelease _ _ _)
    | barrier id => exact .answers _ closed (by simp) (by simp)
    | _ => exact .answers c.notices closed (by simp) (by simp)
  | error f =>
    cases q with
    | tick => exact .latches _ f rfl
    | stop => exact .departs _ (some f) _ _ rfl rfl (departure_beginRelease _ _ _)
    | _ => exact .fails f (by simp) (by simp)

/-! ### The end of a close -/

/-- The coordinator once all results of a close are out. -/
def settled (c : Coordinator) (close : Close) (total : Nat) : Coordinator :=
  let closed := { c with
    slot := (c.slot.reset c.timer.now).release.2
    tally := c.tally.bundleFinished close.trigger close.items (UInt64.ofNat total) }
  closed.note (closed.closeNotice close total)

/-- What becomes of a close that has these results left to emit. -/
inductive Emission (i : Nat) (q : Request α) (c : Coordinator) (close : Close) (total : Nat) :
    List β → Coordinator × Stage α β → Prop
  | more (r : β) (rest : List β) :
      Emission i q c close total (r :: rest) (c, .emitting close r rest total)
  | lets (w : Watermark) (hheld : c.slot.held = some w) :
      Emission i q c close total [] (c.settled close total, .releasing close w)
  | last (out : Coordinator × Stage α β) (hheld : c.slot.held = none)
      (h : Parting i q (c.settled close total) (.ok true) out) : Emission i q c close total [] out

theorem emission_emitNext (c : Coordinator) (i : Nat) (q : Request α) (close : Close)
    (total : Nat) (results : List β) :
    Emission i q c close total results (c.emitNext i q close total results) := by
  cases results with
  | cons r rest => exact .more r rest
  | nil =>
    unfold emitNext settleClose
    dsimp only
    split
    case h_1 w hheld => exact .lets w hheld
    case h_2 hheld => exact .last _ hheld (parting_afterClose _ _ _ _)

/-! ### A turn with the lock -/

/-- The coordinator once the unit has taken an item. -/
def counted (c : Coordinator) : Coordinator :=
  { c with slot := c.slot.count.2, tally := c.tally.itemProcessed }

/-- Every outcome of a stretch of a call that holds the lock: the stage it starts from, the answer
it starts with, and what it leaves behind. -/
inductive Turn (i : Nat) (q : Request α) (c : Coordinator) :
    Stage α β → Except Failure (List β) → Coordinator × Stage α β → Prop
  -- the lock has just been granted
  | refused (a) (f : Failure) (hrefused : q.refusal? c = some f) :
      Turn i q c .queued a (c.leave (.failed f))
  | passes (a) (hq : q = .shutdown) : Turn i q c .queued a (c.leave .done)
  | opens (a) (hq : q = .start) (hadmitted : q.Admitted c) : Turn i q c .queued a (c, .opening)
  | continues (a) (x : α) (hq : q = .submit x) (hadmitted : q.Admitted c)
      (hopen : c.slot.isOpen = true) : Turn i q c .queued a (c, .processing x)
  | starts (a) (x : α) (hq : q = .submit x) (hadmitted : q.Admitted c)
      (hopen : c.slot.isOpen = false) :
      Turn i q c .queued a ({ c with slot := c.slot.tryOpen.2 }, .starting x)
  | holds (a) (w : Watermark) (hq : q = .watermark w) (hadmitted : q.Admitted c)
      (hterminal : w.isTerminal = false) (hopen : c.slot.isOpen = true) :
      Turn i q c .queued a ((c.holdBack w).leave .done)
  | forwards (a) (w : Watermark) (hq : q = .watermark w) (hadmitted : q.Admitted c)
      (hterminal : w.isTerminal = false) (hopen : c.slot.isOpen = false) :
      Turn i q c .queued a (c, .forwarding w)
  | closes (a) (t : Trigger) (hq : q.trigger? = some t) (hadmitted : q.Admitted c)
      (hunit : c.hasUnit = true) (hopen : c.slot.isOpen = true) :
      Turn i q c .queued a
        ({ c with slot := c.slot.tryClose.2 }, .finishing ⟨t, c.slot.items⟩)
  | idles (a) (t : Trigger) (out) (hq : q.trigger? = some t)
      (hidle : q.Admitted c → c.hasUnit = true → c.slot.isOpen = false)
      (hmark : ∀ w, q = .watermark w → q.Admitted c)
      (h : Parting i q c (.ok false) out) : Turn i q c .queued a out
  | takesUnit (a) (r : Release) (hunit : c.hasUnit = true) :
      Turn i q c (.queuedToRelease r) a ({ c with hasUnit := false }, .closingUnit r)
  | findsNoUnit (a) (r : Release) (notices : List Notice) (reply : Reply)
      (hunit : c.hasUnit = false) (hreply : reply = r.reply none) :
      Turn i q c (.queuedToRelease r) a
        (({ c with slot := c.slot.tryClose.2, notices := notices }).leave reply)
  -- a collaborator has answered
  | opensNot (f : Failure) (notices : List Notice) :
      Turn i q c .opening (.error f) (({ c with notices := notices }).leave (.failed f))
  | schedulesNot (results) (f : Failure) (timer : Timer) (notices : List Notice)
      (hsame : timer.registrations = c.timer.registrations) :
      Turn i q c .opening (.ok results)
        (({ c with
            slot := c.slot.reset c.timer.now, timer := timer, notices := notices }).leave
          (.failed f))
  | runs (results) (index : Nat) (timer : Timer) (notices : List Notice)
      (hindex : index = c.timer.registrations.length)
      (hadds : timer.registrations =
        c.timer.registrations ++ [⟨c.policy.checkPeriod.toMillis, true⟩]) :
      Turn i q c .opening (.ok results)
        (({ c with
            slot := c.slot.reset c.timer.now, timer := timer, registration := some index
            phase := .running, notices := notices }).leave .done)
  | startsNot (x : α) (f : Failure) :
      Turn i q c (.starting x) (.error f)
        (({ c with slot := c.slot.tryClose.2 }).leave (.failed f))
  | started (x : α) (results) (notices : List Notice) :
      Turn i q c (.starting x) (.ok results)
        ({ c with tally := c.tally.bundleStarted, notices := notices }, .processing x)
  | processesNot (x : α) (f : Failure) :
      Turn i q c (.processing x) (.error f) (c.leave (.failed f))
  | accepts (x : α) (results) (hroom : ¬ c.policy.maxItems ≤ c.slot.items + 1) :
      Turn i q c (.processing x) (.ok results) (c.counted.leave .done)
  | fills (x : α) (results) (hfull : c.policy.maxItems ≤ c.slot.items + 1)
      (hunit : c.hasUnit = true) (hopen : c.slot.isOpen = true) :
      Turn i q c (.processing x) (.ok results)
        ({ c.counted with slot := c.counted.slot.tryClose.2 },
          .finishing ⟨.itemCount, c.slot.items + 1⟩)
  | fillsNone (x : α) (results out) (hfull : c.policy.maxItems ≤ c.slot.items + 1)
      (hidle : c.hasUnit = true → c.slot.isOpen = false)
      (h : Parting i q c.counted (.ok false) out) : Turn i q c (.processing x) (.ok results) out
  | finishesNot (close : Close) (f : Failure) (out) (h : Parting i q c (.error f) out) :
      Turn i q c (.finishing close) (.error f) out
  | finished (close : Close) (results) :
      Turn i q c (.finishing close) (.ok results) (c, .draining close)
  | drainsNot (close : Close) (f : Failure) (out) (h : Parting i q c (.error f) out) :
      Turn i q c (.draining close) (.error f) out
  | drained (close : Close) (results out)
      (h : Emission i q c close results.length results out) :
      Turn i q c (.draining close) (.ok results) out
  | emitsNot (close : Close) (r : β) (rest : List β) (total : Nat) (f : Failure) (out)
      (h : Parting i q c (.error f) out) : Turn i q c (.emitting close r rest total) (.error f) out
  | emitted (close : Close) (r : β) (rest : List β) (total : Nat) (results out)
      (h : Emission i q c close total rest out) :
      Turn i q c (.emitting close r rest total) (.ok results) out
  | releasesNot (close : Close) (w : Watermark) (f : Failure) (out)
      (h : Parting i q c (.error f) out) : Turn i q c (.releasing close w) (.error f) out
  | released (close : Close) (w : Watermark) (results out)
      (h : Parting i q (c.forwarded w) (.ok true) out) :
      Turn i q c (.releasing close w) (.ok results) out
  | forwardsNot (w : Watermark) (f : Failure) :
      Turn i q c (.forwarding w) (.error f) (c.leave (.failed f))
  | forwarded (w : Watermark) (results) :
      Turn i q c (.forwarding w) (.ok results) ((c.forwarded w).leave .done)
  | settles (r : Release) (a) (notices : List Notice) (reply : Reply)
      (hreply : reply = r.reply (unitFailure a)) :
      Turn i q c (.closingUnit r) a
        (({ c with slot := c.slot.tryClose.2, notices := notices }).leave reply)

/-- A call that asks for a close under the lock makes one, or has nothing to close. -/
theorem turn_beginClose {c : Coordinator} {q : Request α} {t : Trigger} (i : Nat)
    (a : Except Failure (List β)) (hq : q.trigger? = some t) (hadmitted : q.Admitted c) :
    Turn i q c .queued a (c.beginClose i q t) := by
  unfold beginClose
  split
  case isTrue h =>
    rw [Bool.and_eq_true] at h
    exact .closes a t hq hadmitted h.1 h.2
  case isFalse h =>
    refine .idles a t _ hq (fun _ hunit ↦ ?_) (fun _ _ ↦ hadmitted) (parting_afterClose _ _ _ _)
    rw [hunit, Bool.true_and] at h
    exact Bool.eq_false_iff.mpr h

theorem running_eq_ok_iff (c : Coordinator) (doing : String) :
    c.running doing = .ok () ↔ c.latched = none ∧ c.phase = .running := by
  unfold running
  cases c.latched with
  | some f => simp
  | none => by_cases hphase : c.phase = .running <;> simp [hphase]

theorem turn_enter (c : Coordinator) (i : Nat) (q : Request α) (a : Except Failure (List β)) :
    Turn i q c .queued a (c.enter i q) := by
  have hrunning (doing : String) (u : Unit) (h : c.running doing = .ok u) :
      c.latched = none ∧ c.phase = .running := (c.running_eq_ok_iff doing).mp h
  cases q <;> unfold enter <;> dsimp only
  case start =>
    split
    · exact .refused _ _ (by simp_all [Request.refusal?])
    · split
      · exact .refused _ _ (by simp_all [Request.refusal?])
      · exact .opens a rfl ⟨by simp_all, by simp_all⟩
  case submit x =>
    split
    · exact .refused _ _ (by simp_all [Request.refusal?, Request.refusalTo?])
    · rename_i u hrun
      split
      · exact .refused _ _ (by simp_all [Request.refusal?, Request.refusalTo?])
      · have hadmitted : (Request.submit x).Admitted c :=
          ⟨(hrunning _ u hrun).1, (hrunning _ u hrun).2, by simp_all⟩
        split
        · exact .continues a x rfl hadmitted (by assumption)
        · exact .starts a x rfl hadmitted (by simp_all)
  case watermark w =>
    split
    · exact .refused _ _ (by simp_all [Request.refusal?, Request.refusalTo?])
    · rename_i u hrun
      split
      · exact .refused _ _ (by simp_all [Request.refusal?, Request.refusalTo?])
      · have hadmitted : (Request.watermark w : Request α).Admitted c :=
          ⟨(hrunning _ u hrun).1, (hrunning _ u hrun).2, by simp_all⟩
        split
        · exact turn_beginClose i a (by simp_all [Request.trigger?]) hadmitted
        · split
          · exact .holds a w rfl hadmitted (by simp_all) (by assumption)
          · exact .forwards a w rfl hadmitted (by simp_all) (by simp_all)
  case shutdown => exact .passes a rfl
  case checkAge =>
    split
    · exact turn_beginClose i a rfl (by assumption)
    · exact .idles a .bundleAge _ rfl (fun h ↦ absurd h (by assumption)) (by simp)
        (parting_afterClose _ _ _ _)
  case tick =>
    split
    · exact turn_beginClose i a rfl (by assumption)
    · exact .idles a .bundleAge _ rfl (fun h ↦ absurd h (by assumption)) (by simp)
        (parting_afterClose _ _ _ _)
  case stop => exact turn_beginClose i a rfl trivial
  case barrier => exact turn_beginClose i a rfl trivial
  case endInput => exact turn_beginClose i a rfl trivial
  case finish => exact turn_beginClose i a rfl trivial

theorem turn_enterRelease (c : Coordinator) (i : Nat) (q : Request α) (r : Release)
    (a : Except Failure (List β)) : Turn i q c (.queuedToRelease r) a (c.enterRelease r) := by
  unfold enterRelease
  split
  · exact .takesUnit a r (by assumption)
  · obtain ⟨notices, hsettle⟩ := settleRelease_eq (α := α) (β := β) c r none
    rw [hsettle]
    exact .findsNoUnit a r notices _ (by simp_all) rfl

theorem turn_accepted (c : Coordinator) (i : Nat) (q : Request α) (x : α) (results : List β) :
    Turn i q c (.processing x) (.ok results) (c.accepted i q) := by
  unfold accepted
  dsimp only
  split
  case isFalse hroom => exact .accepts x results hroom
  case isTrue hfull =>
    unfold beginClose
    split
    case isTrue h =>
      rw [Bool.and_eq_true] at h
      exact .fills x results hfull h.1 h.2
    case isFalse h =>
      refine .fillsNone x results _ hfull (fun hunit ↦ ?_) (parting_afterClose _ _ _ _)
      rw [hunit, Bool.true_and] at h
      exact Bool.eq_false_iff.mpr h

theorem turn_opened (c : Coordinator) (i : Nat) (q : Request α) (results : List β) :
    Turn i q c .opening (.ok results) c.opened := by
  unfold opened schedule
  dsimp only
  split
  case h_1 f d h =>
    split at h
    case h_1 f' hfails =>
      cases h
      exact .schedulesNot results _ _ _ (Timer.registrations_of_schedule_error hfails)
    case h_2 => cases h
  case h_2 u d h =>
    split at h
    case h_1 => cases h
    case h_2 index hindex =>
      cases h
      obtain ⟨hlast, hadds⟩ := Timer.registrations_of_schedule_ok hindex
      exact .runs results _ _ _ hlast hadds

theorem turn_resume (c : Coordinator) (i : Nat) (q : Request α) (s : Stage α β)
    (a : Except Failure (List β)) (hs : s.operation?.isSome = true) :
    Turn i q c s a (c.resume i q s a) := by
  cases s with
  | queued => cases hs
  | queuedToRelease r => cases hs
  | ended r => cases hs
  | opening =>
    cases a with
    | error f => exact .opensNot f _
    | ok results => exact turn_opened c i q results
  | starting x =>
    cases a with
    | error f => exact .startsNot x f
    | ok results => exact .started x results _
  | processing x =>
    cases a with
    | error f => exact .processesNot x f
    | ok results => exact turn_accepted c i q x results
  | finishing close =>
    cases a with
    | error f => exact .finishesNot close f _ (parting_afterClose _ _ _ _)
    | ok results => exact .finished close results
  | draining close =>
    cases a with
    | error f => exact .drainsNot close f _ (parting_afterClose _ _ _ _)
    | ok results => exact .drained close results _ (emission_emitNext _ _ _ _ _ _)
  | emitting close r rest total =>
    cases a with
    | error f => exact .emitsNot close r rest total f _ (parting_afterClose _ _ _ _)
    | ok results => exact .emitted close r rest total results _ (emission_emitNext _ _ _ _ _ _)
  | releasing close w =>
    cases a with
    | error f => exact .releasesNot close w f _ (parting_afterClose _ _ _ _)
    | ok results => exact .released close w results _ (parting_afterClose _ _ _ _)
  | forwarding w =>
    cases a with
    | error f => exact .forwardsNot w f
    | ok results => exact .forwarded w results
  | closingUnit r =>
    cases a with
    | error f =>
      obtain ⟨notices, hsettle⟩ := settleRelease_eq (α := α) (β := β)
        (c.note (.problem "bundling_coordinator" "close_execution_unit" f.message none)) r (some f)
      change Turn i q c _ _ (Coordinator.settleRelease _ _ _)
      rw [hsettle]
      exact .settles r _ notices _ rfl
    | ok results =>
      obtain ⟨notices, hsettle⟩ := settleRelease_eq (α := α) (β := β) c r none
      change Turn i q c _ _ (Coordinator.settleRelease _ _ _)
      rw [hsettle]
      exact .settles r _ notices _ rfl

/-! ### Coming to the lock -/

/-- A call that ends before it asks for the lock, and its reply. -/
def Declines (q : Request α) (c : Coordinator) (r : Reply) : Prop :=
  c.early q = some r ∨ q = .shutdown ∧ c.phase = .stopped ∧ r = .done

/-- Submits and watermarks pass the first check of a coordinator that runs and has no failure to
report. -/
theorem early_eq_running (c : Coordinator) {q : Request α}
    (hq : (∃ x, q = .submit x) ∨ ∃ w, q = .watermark w) :
    ∃ doing, c.early q = match c.running doing with
      | .ok _ => none
      | .error f => some (.failed f) := by
  rcases hq with ⟨x, rfl⟩ | ⟨w, rfl⟩ <;> exact ⟨_, rfl⟩

theorem early_eq_none_iff (c : Coordinator) {q : Request α}
    (hq : (∃ x, q = .submit x) ∨ ∃ w, q = .watermark w) :
    c.early q = none ↔ c.latched = none ∧ c.phase = .running := by
  obtain ⟨doing, hearly⟩ := c.early_eq_running hq
  rw [hearly, ← c.running_eq_ok_iff doing]
  cases c.running doing <;> simp

/-- Only a tick, a stop and a shutdown may be done before they ask for the lock. -/
theorem Declines.ne_done {q : Request α} {c : Coordinator} {r : Reply} (h : Declines q c r)
    (htick : q ≠ .tick) (hstop : q ≠ .stop) (hshutdown : q ≠ .shutdown) : r ≠ .done := by
  rintro rfl
  have hearly := h.resolve_right fun hshut ↦ hshutdown hshut.1
  cases q <;> simp only [early] at hearly
  case tick => exact htick rfl
  case stop => exact hstop rfl
  all_goals first | cases hearly | (split at hearly <;> cases hearly)

/-- What any other call does to the coordinator, and to itself, before it asks for the lock. -/
inductive Joins (q : Request α) (c : Coordinator) : Coordinator → Stage α β → Prop
  | asks (hstop : q ≠ .stop) (hshutdown : q ≠ .shutdown) (hearly : c.early q = none) :
      Joins q c c .queued
  | stops (hq : q = .stop) (hphase : c.phase ≠ .stopped) :
      Joins q c { c with phase := .stopping } .queued
  | shutsDown (hq : q = .shutdown) (hphase : c.phase ≠ .stopped) :
      Joins q c c.ceased (.queuedToRelease (c.releaseOf none))

/-- Asking for the lock either waits in line or goes on at once. -/
theorem ask_cases (c : Coordinator) (n : Nat) (q : Request α) :
    (c.lock.holder ≠ none ∧
        (c.ask n q : Coordinator × Stage α β) = (c.inLine n, .queued)) ∨
      (c.lock.holder = none ∧
        Turn n q (c.inLine n) .queued (.ok []) (c.ask n q : Coordinator × Stage α β)) := by
  have hask : (c.ask n q : Coordinator × Stage α β) =
      if c.lock.holder = none then (c.inLine n).enter n q else (c.inLine n, .queued) := by
    unfold ask inLine
    cases hlock : c.lock.holder <;> simp [Lock.ask, hlock]
  rw [hask]
  split
  case isTrue hlock => exact .inr ⟨hlock, turn_enter _ _ _ _⟩
  case isFalse hlock => exact .inl ⟨hlock, rfl⟩

/-- The first stretch of a call: it is declined, it joins the line, or it joins and has its turn. -/
theorem begin_cases (c : Coordinator) (n : Nat) (q : Request α) :
    (∃ r, Declines q c r ∧ (c.begin n q : Coordinator × Stage α β) = (c, .ended r)) ∨
      ∃ (d : Coordinator) (s : Stage α β), Joins q c d s ∧
        (c.lock.holder ≠ none ∧ c.begin n q = (d.inLine n, s) ∨
          c.lock.holder = none ∧ Turn n q (d.inLine n) s (.ok []) (c.begin n q)) := by
  cases hearly : c.early q with
  | some r =>
    refine .inl ⟨r, .inl hearly, ?_⟩
    unfold begin
    rw [hearly]
  | none =>
    cases q with
    | stop =>
      have hphase : c.phase ≠ .stopped := by
        intro h
        simp [early, h] at hearly
      have hbegin : (c.begin n (.stop : Request α) : Coordinator × Stage α β) =
          ({ c with phase := .stopping } : Coordinator).ask n .stop := by
        unfold begin
        rw [hearly]
      rw [hbegin]
      exact .inr ⟨_, _, .stops rfl hphase, ask_cases { c with phase := .stopping } n .stop⟩
    | shutdown =>
      have hbegin : (c.begin n (.shutdown : Request α) : Coordinator × Stage α β) =
          c.beginRelease n none := rfl
      have hdeparture := departure_beginRelease (α := α) (β := β) c n none
      rw [hbegin]
      generalize (c.beginRelease n none : Coordinator × Stage α β) = out at hdeparture ⊢
      cases hdeparture with
      | already hphase => exact .inl ⟨_, .inr ⟨rfl, hphase, rfl⟩, rfl⟩
      | waits hphase hlock =>
        exact .inr ⟨_, _, .shutsDown rfl hphase, .inl ⟨hlock, rfl⟩⟩
      | takes hphase hlock hunit =>
        exact .inr ⟨_, _, .shutsDown rfl hphase, .inr ⟨hlock,
          .takesUnit _ _ ((ceased_hasUnit c).trans hunit)⟩⟩
      | settles notices reply hphase hlock hunit hreply =>
        refine .inr ⟨_, _, .shutsDown rfl hphase, .inr ⟨hlock, ?_⟩⟩
        rw [← ceased_slot c]
        exact .findsNoUnit _ _ notices reply ((ceased_hasUnit c).trans hunit) hreply
    | _ =>
      refine .inr ⟨c, .queued, .asks (by simp) (by simp) hearly, ?_⟩
      unfold begin
      rw [hearly]
      exact ask_cases c n _

end Coordinator

end Bundling
