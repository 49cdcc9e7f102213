import Bundling.Proofs.AfterRelease
import Bundling.Proofs.Machine
import Bundling.Proofs.Startup

/-!
Age checks that interleave with other calls, on a clock that never goes back. The age is counted
from the last close, and a bundle is never opened before it, so a check that finds the age limit not
reached finds the open bundle younger than that. A check looks at the clock twice, when it is made
and when it gets the lock; what it has seen the first time may have been closed by the second, and a
bundle opened since. It leaves no bundle behind that was too old when it looked, and closes none
before the age limit has passed since the last close that was completed, or since the start.
-/

set_option autoImplicit false
set_option relaxedAutoImplicit false

namespace Bundling

/-- A request to close the open bundle if it has reached the age limit. -/
def Request.IsAgeCheck {α : Type} (q : Request α) : Prop := q = .tick ∨ q = .checkAge

namespace Coordinator

open History

variable {α β : Type} {c d : Coordinator} {i : Nat} {q : Request α} {s : Stage α β}
  {a : Except Failure (List β)} {out : Coordinator × Stage α β} {new : History α β}

/-- A bundle that is being closed is not open any more. -/
theorem Fits.shut_of_close (h : c.Fits s) (hs : s.close?.isSome = true) :
    c.slot.isOpen = false := by
  cases s with
  | finishing | draining | emitting | releasing => exact h.2.2
  | _ => cases hs

/-! ### What a turn does to the time of the last close -/

/-- No close has been completed, and no bundle opened. -/
structure Undated (c d : Coordinator) : Prop where
  lastClose : d.slot.lastClose = c.slot.lastClose
  finished : d.tally.bundlesFinished = c.tally.bundlesFinished
  isOpen : d.slot.isOpen = true → c.slot.isOpen = true

theorem Departure.undated {f : Option Failure} (h : Departure i f c out) : Undated c out.1 := by
  cases h with
  | already => exact ⟨rfl, rfl, fun hopen ↦ hopen⟩
  | waits | takes =>
    have hslot : c.ceased.slot = c.slot := ceased_slot c
    refine ⟨congrArg Slot.lastClose hslot, congrArg Tally.bundlesFinished (ceased_tally c),
      fun hopen ↦ ?_⟩
    rw [← hslot]
    exact hopen
  | settles =>
    exact ⟨rfl, congrArg Tally.bundlesFinished (ceased_tally c), fun hopen ↦ by cases hopen⟩

theorem Parting.undated {result : Except Failure Bool} (h : Parting i q c result out) :
    Undated c out.1 := by
  cases h with
  | departs _ _ _ _ _ _ hdeparts =>
    have hundated := hdeparts.undated
    exact ⟨hundated.lastClose, hundated.finished, hundated.isOpen⟩
  | _ => exact ⟨rfl, rfl, fun hopen ↦ hopen⟩

/-- What a turn does to the time of the last close. It leaves it as it is, where a bundle may be
opened that was not open if the coordinator runs; or it completes a close, or opens the unit, and
sets it to the present. -/
inductive Dates (c : Coordinator) (s : Stage α β) (d : Coordinator) (new : History α β) : Prop
  | keeps (hlast : d.slot.lastClose = c.slot.lastClose)
      (hfinished : d.tally.bundlesFinished = c.tally.bundlesFinished)
      (hopen : d.slot.isOpen = true → c.slot.isOpen = true ∨ c.phase = .running)
      (hnew : launches new = 0)
  | stamps (hs : s = .opening ∨ s.close?.isSome = true) (hlast : d.slot.lastClose = c.timer.now)
      (hopen : d.slot.isOpen = true → c.slot.isOpen = true)

theorem Emission.dates {close : Close} {total : Nat} {results : List β}
    (h : Emission i q c close total results out) (hs : s.close?.isSome = true)
    (hnew : launches new = 0) : Dates c s out.1 new := by
  cases h with
  | more => exact .keeps rfl rfl .inl hnew
  | lets => exact .stamps (.inr hs) rfl fun hopen ↦ hopen
  | last _ _ hparts =>
    have hundated := hparts.undated
    exact .stamps (.inr hs) hundated.lastClose hundated.isOpen

theorem Turn.dates (h : Turn i q c s a out) (hstart : q = .start → StartStage s) :
    Dates c s out.1 (Event.left i s a ++ Event.reached i q out.2) := by
  by_cases hother : s = .opening → ∃ f, a = .error f
  · have hnew := (h.bides hstart hother).launches
    cases h with
    | starts _ _ hq hadmitted =>
      subst hq
      exact .keeps rfl rfl (fun _ ↦ .inr hadmitted.2.1) hnew
    | idles _ _ _ _ _ _ h | fillsNone _ _ _ _ _ h | finishesNot _ _ _ h | drainsNot _ _ _ h
    | emitsNot _ _ _ _ _ _ h | releasesNot _ _ _ _ h | released _ _ _ _ h =>
      have hundated := h.undated
      exact .keeps hundated.lastClose hundated.finished (fun hopen ↦ .inl (hundated.isOpen hopen))
        hnew
    | drained _ _ _ h | emitted _ _ _ _ _ _ h => exact h.dates rfl hnew
    | schedulesNot | runs => exact .stamps (.inl rfl) rfl fun hopen ↦ hopen
    | closes | findsNoUnit | startsNot | fills | settles =>
      exact .keeps rfl rfl (fun hopen ↦ (by cases hopen)) hnew
    | _ => exact .keeps rfl rfl .inl hnew
  · obtain ⟨rfl, hok⟩ := Classical.not_imp.mp hother
    cases h with
    | opensNot f => exact absurd ⟨f, rfl⟩ hok
    | schedulesNot | runs => exact .stamps (.inl rfl) rfl fun hopen ↦ hopen

/-- A bundle is open only after the coordinator has left its first phase, and while nobody opens the
unit. -/
theorem Turn.pastStart_of_open (h : Turn i q c s a out) (hstart : q = .start → StartStage s)
    (hbefore : c.slot.isOpen = true → PastStart c s) (hopen : out.1.slot.isOpen = true) :
    PastStart out.1 out.2 := by
  have hphase : c.phase ≠ .created := by
    cases h.dates hstart with
    | keeps _ _ hstill =>
      rcases hstill hopen with hstill | hrunning
      · exact (hbefore hstill).phase
      · simp [hrunning]
    | stamps _ _ hstill => exact (hbefore (hstill hopen)).phase
  exact h.pastStart_of_phase hphase

/-- An age check that gets the lock closes the open bundle, or finds it too young. -/
theorem Turn.looks (h : Turn i q c .queued a out) (hq : q.IsAgeCheck)
    (hthere : c.slot.isOpen = true → c.hasUnit = true) : out.1.slot.isOpen = false ∨
      out.1.slot = c.slot ∧ (c.phase = .running → c.isExpired = false) := by
  have hstop : q ≠ .stop := by rcases hq with rfl | rfl <;> simp
  cases h with
  | closes => exact .inl rfl
  | idles _ _ _ _ hidle _ hparts =>
    have hslot := (hparts.eq_of_ok hstop).1
    cases hopen : c.slot.isOpen with
    | false => exact .inl ((congrArg Slot.isOpen hslot).trans hopen)
    | true =>
      refine .inr ⟨hslot, fun hrunning ↦ Bool.eq_false_iff.mpr fun hexpired ↦ ?_⟩
      have hadmitted : q.Admitted c := by
        rcases hq with rfl | rfl <;> exact ⟨hrunning, hexpired⟩
      exact absurd (hopen.symm.trans (hidle hadmitted (hthere hopen))) (by simp)
  | refused _ _ hrefused => rcases hq with rfl | rfl <;> cases hrefused
  | passes _ h | opens _ h | continues _ _ h | starts _ _ h | holds _ _ h | forwards _ _ h =>
    rcases hq with rfl | rfl <;> cases h

/-- A close is put down to the age only where it is asked for so, or where an age check that has got
the lock has found the age limit passed. -/
theorem Turn.closes_by_age (h : Turn i q c s a out) {items : UInt64}
    (hclosing : out.2 = .finishing ⟨.bundleAge, items⟩) :
    q = .finish .bundleAge ∨ q.IsAgeCheck ∧ c.phase = .running ∧ c.isExpired = true := by
  cases h with
  | closes _ t hq hadmitted =>
    cases hclosing
    cases q with
    | start | submit | shutdown | barrier | endInput | stop => cases hq
    | watermark w =>
      dsimp only [Request.trigger?] at hq
      split at hq <;> cases hq
    | finish t =>
      cases hq
      exact .inl rfl
    | checkAge => exact .inr ⟨.inr rfl, hadmitted⟩
    | tick => exact .inr ⟨.inl rfl, hadmitted⟩
  | idles _ _ _ _ _ _ h | fillsNone _ _ _ _ _ h | finishesNot _ _ _ h | drainsNot _ _ _ h
  | emitsNot _ _ _ _ _ _ h | releasesNot _ _ _ _ h | released _ _ _ _ h =>
    exact absurd hclosing (h.ne_finishing _)
  | drained _ _ _ h | emitted _ _ _ _ _ _ h => exact absurd hclosing (h.ne_finishing _)
  | _ => cases hclosing

end Coordinator

namespace World

variable {α β : Type} {w v : World α β} {t u new : History α β} {l : Limits} {m : Move α β}
  {k : Nat} {id : String} {checked : Checked} {timer : Timer}

open History

/-! ### An open bundle -/

theorem kept_pastStart_of_open : Kept (fun _ (call : Call α β) _ ↦
      call.request = .start → Coordinator.StartStage call.stage)
    fun c _ (call : Call α β) _ ↦ c.slot.isOpen = true → c.PastStart call.stage where
  rest := fun _ hother hpast hopen ↦ (hpast hopen).of_rest hother
  turns := fun _ hstart hturn hpast ↦ hturn.pastStart_of_open hstart hpast
  joins := by
    intro c i n q d s call t hjoins hpast hopen
    exact (hpast (hjoins.slot ▸ hopen)).joins hjoins n
  declines := fun _ hpast ↦ hpast
  retimes := fun hpast hopen ↦ ⟨(hpast hopen).phase, (hpast hopen).stage⟩

/-- A bundle is open only where the unit has been opened. -/
theorem Reaches.not_unopened (h : Reaches (created id checked timer) w t)
    (hopen : w.coordinator.slot.isOpen = true) : ¬ w.Unopened := by
  have hcreated := orderly_created (α := α) (β := β) id checked timer
  have hpast := kept_pastStart_of_open.reaches hcreated (fun hreaches call hcall ↦ by
      obtain ⟨i, hi⟩ := List.mem_iff_getElem?.mp hcall
      exact hreaches.startStage_of_call hi)
    (fun hopen ↦ by cases hopen) h hopen
  rintro (hphase | ⟨j, hj⟩)
  · exact hpast.phase hphase
  · obtain ⟨call, hcall, hopening⟩ := Option.map_eq_some_iff.mp hj
    have hacting := (h.orderly hcreated).acting_of_operation hcall (by rw [hopening]; rfl)
    rw [hacting] at hpast
    exact hpast.stage hopening

/-- The coordinator has been told to stop, and nobody opens the unit, so it will come to rest
stopped. -/
structure Leaving (w : World α β) : Prop where
  phase : .stopping ≤ w.coordinator.phase
  opened : ¬ w.Unopened

theorem Leaving.advance (h : w.Leaving) (hadvance : Advance w v new) : v.Leaving := by
  cases hadvance with
  | declines q r =>
    exact ⟨h.phase, fun hunopened ↦
      h.opened (unopened_of_append (fun hcreated ↦ hcreated) (by simp) hunopened)⟩
  | joins q d s hjoins =>
    refine ⟨Phase.le_trans h.phase hjoins.phase_le, fun hunopened ↦ h.opened ?_⟩
    refine unopened_of_append (fun hcreated ↦ ?_) (by cases hjoins <;> simp) hunopened
    by_contra hphase
    exact Phase.ne_created_of_le hjoins.phase_le hphase hcreated
  | turns i call answer out hcall hlock hturn =>
    refine ⟨?_, fun hunopened ↦ h.opened (unopened_of_turn hcall hturn hunopened)⟩
    rcases hturn.course.phase_le with hle | ⟨hopening, -, -⟩
    · exact Phase.le_trans h.phase hle
    · exact absurd (.inr ⟨i, (stage?_of_call hcall).trans (congrArg _ hopening)⟩) h.opened
  | retimes => exact ⟨h.phase, h.opened⟩

theorem Leaving.reaches (h : w.Leaving) (hrest : Reaches w v u) : v.Leaving := by
  induction hrest with
  | start => exact h
  | advance _ hadvance ih => exact ih.advance hadvance

/-! ### Moments -/

/-- What the clock reads. -/
def clock (w : World α β) : Int := w.coordinator.timer.now.toInt

/-- The clock never goes back. -/
def Forward (w : World α β) : List (Move α β) → Prop
  | [] => True
  | m :: moves => w.clock ≤ (w.step m).clock ∧ (w.step m).Forward moves

instance decidableForward (w : World α β) : (moves : List (Move α β)) → Decidable (w.Forward moves)
  | [] => inferInstanceAs (Decidable True)
  | m :: moves =>
    have := decidableForward (w.step m) moves
    inferInstanceAs (Decidable (_ ∧ _))

/-- A move in which a bundle is opened. -/
def opensBundle (w : World α β) (m : Move α β) : Bool :=
  !w.coordinator.slot.isOpen && (w.step m).coordinator.slot.isOpen

theorem opensBundle_of_open (hopen : w.coordinator.slot.isOpen = true) :
    w.opensBundle m = false := by
  simp [opensBundle, hopen]

theorem opensBundle_of_shut (hshut : w.coordinator.slot.isOpen = false)
    (hopen : (w.step m).coordinator.slot.isOpen = true) : w.opensBundle m = true := by
  simp [opensBundle, hshut, hopen]

/-- A move in which a close is completed, or a start. -/
def completes (w : World α β) (m : Move α β) : Bool :=
  launches (w.events m) != 0 ||
    (w.step m).coordinator.tally.bundlesFinished != w.coordinator.tally.bundlesFinished

/-- What the clock has read at the last of these moves that is of this kind. -/
def lastTime? (p : World α β → Move α β → Bool) (w : World α β) : List (Move α β) → Option Int
  | [] => none
  | m :: moves => ((w.step m).lastTime? p moves).or (if p w m then some w.clock else none)

theorem forward_append (w : World α β) (moves rest : List (Move α β)) :
    w.Forward (moves ++ rest) ↔ w.Forward moves ∧ (w.run moves).Forward rest := by
  induction moves generalizing w with
  | nil => exact ⟨fun h ↦ ⟨trivial, h⟩, fun h ↦ h.2⟩
  | cons m moves ih =>
    change w.clock ≤ (w.step m).clock ∧ (w.step m).Forward (moves ++ rest) ↔ _
    rw [ih, ← and_assoc]
    rfl

theorem lastTime?_snoc (p : World α β → Move α β → Bool) (w : World α β)
    (moves : List (Move α β)) (m : Move α β) : w.lastTime? p (moves ++ [m]) =
      if p (w.run moves) m then some (w.run moves).clock else w.lastTime? p moves := by
  induction moves generalizing w with
  | nil => rfl
  | cons m' moves ih =>
    change ((w.step m').lastTime? p (moves ++ [m])).or _ = _
    rw [ih]
    change _ = if p ((w.step m').run moves) m then some ((w.step m').run moves).clock
      else ((w.step m').lastTime? p moves).or _
    split <;> rfl

/-- A move leaves the time of the last close as it is, or sets it to the present with no bundle
open. -/
inductive Moment (w : World α β) (m : Move α β) : Prop
  | keeps (hlast : (w.step m).coordinator.slot.lastClose = w.coordinator.slot.lastClose)
      (hnot : w.completes m = false)
  | stamps (hlast : (w.step m).coordinator.slot.lastClose.toInt = w.clock)
      (hshut : (w.step m).coordinator.slot.isOpen = false)

theorem moment_of_keeps
    (hlast : (w.step m).coordinator.slot.lastClose = w.coordinator.slot.lastClose)
    (hfinished : (w.step m).coordinator.tally.bundlesFinished =
      w.coordinator.tally.bundlesFinished) (hnew : launches (w.events m) = 0) : w.Moment m := by
  refine .keeps hlast ?_
  unfold completes
  rw [hnew, hfinished]
  simp

/-- The first stretch of a call completes nothing. -/
theorem moment_issue (w : World α β) (q : Request α) : w.Moment (.issue q) := by
  have hnew := (w.coordinator.bides_begin (β := β) w.calls.length q).launches
  have hstep : (w.step (.issue q)).coordinator =
    (w.coordinator.begin w.calls.length q : Coordinator × Stage α β).1 := rfl
  rcases Coordinator.begin_cases (β := β) w.coordinator w.calls.length q with
    ⟨r, -, hbegin⟩ | ⟨d, s, hjoins, hnext⟩
  · rw [hbegin] at hstep
    exact moment_of_keeps (by rw [hstep]) (by rw [hstep]) hnew
  · have hinLine (k : Nat) : (d.inLine k).slot = w.coordinator.slot ∧
      (d.inLine k).tally = w.coordinator.tally := ⟨hjoins.slot, hjoins.tally⟩
    rcases hnext with ⟨-, hbegin⟩ | ⟨-, hturn⟩
    · rw [hbegin] at hstep
      exact moment_of_keeps (by rw [hstep, (hinLine _).1]) (by rw [hstep, (hinLine _).2]) hnew
    · have hdates := hturn.dates hjoins.startStage
      rw [← hstep] at hdates
      cases hdates with
      | keeps hlast hfinished =>
        refine moment_of_keeps ?_ ?_ hnew
        · rw [hlast, (hinLine _).1]
        · rw [hfinished, (hinLine _).2]
      | stamps hs => cases hjoins <;> simp [Stage.close?] at hs

theorem Reaches.moment (h : Reaches (created id checked timer) w t) (m : Move α β) :
    w.Moment m := by
  have horderly := h.orderly (orderly_created id checked timer)
  cases m with
  | issue q => exact moment_issue w q
  | clock | timerFaults => exact moment_of_keeps rfl rfl rfl
  | proceed i answer =>
    have hstep : w.step (.proceed i answer) = w.proceed i answer := rfl
    rcases horderly.proceed_turns i answer with ⟨hstays, hevents⟩ |
      ⟨call, out, hcall, hlock, hturn, hproceed, hevents⟩
    · refine moment_of_keeps ?_ ?_ ?_
      · rw [hstep, hstays]
      · rw [hstep, hstays]
      · rw [hevents]
        rfl
    · have hdates := hturn.dates (h.startStage_of_call hcall)
      rw [← hevents] at hdates
      have hout : (w.step (.proceed i answer)).coordinator = out.1 := by rw [hstep, hproceed]
      rw [← hout] at hdates
      cases hdates with
      | keeps hlast hfinished _ hnew => exact moment_of_keeps hlast hfinished hnew
      | stamps hs hlast hstill =>
        refine .stamps (congrArg Int64.toInt hlast) (Bool.eq_false_iff.mpr fun hopen ↦ ?_)
        have hbefore := hstill hopen
        rcases hs with hopening | hclose
        · exact h.not_unopened hbefore
            (.inr ⟨i, (stage?_of_call hcall).trans (congrArg _ hopening)⟩)
        · have hfits := h.conducts.fits
          rw [acting_of_holder hlock hcall] at hfits
          exact absurd ((hfits.shut_of_close hclose).symm.trans hbefore) (by simp)

/-- How the last close stands to the clock, to the opening of the open bundle, and to what was
completed last. -/
structure Dated (w : World α β) (begun ended : Option Int) : Prop where
  lastClose_le : w.coordinator.slot.lastClose.toInt ≤ w.clock
  opened : w.coordinator.slot.isOpen = true →
    ∃ time, begun = some time ∧ w.coordinator.slot.lastClose.toInt ≤ time
  completed : ∀ time, ended = some time → time ≤ w.coordinator.slot.lastClose.toInt
  started : w.coordinator.phase = .running → ended.isSome = true

variable {begun ended : Option Int} {time : Int}

theorem Dated.step (hd : w.Dated begun ended) (h : Reaches (created id checked timer) w t)
    (hclock : w.clock ≤ (w.step m).clock) :
    (w.step m).Dated (if w.opensBundle m then some w.clock else begun)
      (if w.completes m then some w.clock else ended) where
  lastClose_le := by
    cases h.moment m with
    | keeps hlast =>
      rw [hlast]
      exact Int.le_trans hd.lastClose_le hclock
    | stamps hlast =>
      rw [hlast]
      exact hclock
  opened := by
    intro hopen
    cases h.moment m with
    | stamps _ hshut => exact absurd (hshut.symm.trans hopen) (by simp)
    | keeps hlast =>
      rw [hlast]
      cases hbefore : w.coordinator.slot.isOpen with
      | true =>
        rw [opensBundle_of_open hbefore]
        exact hd.opened hbefore
      | false =>
        rw [opensBundle_of_shut hbefore hopen]
        exact ⟨w.clock, rfl, hd.lastClose_le⟩
  completed := by
    intro time htime
    have hle := hd.lastClose_le
    cases h.moment m with
    | keeps hlast hnot =>
      rw [hnot] at htime
      rw [hlast]
      exact hd.completed time htime
    | stamps hlast =>
      rw [hlast]
      split at htime
      case isTrue => exact Int.le_of_eq (Option.some.inj htime).symm
      case isFalse => exact Int.le_trans (hd.completed time htime) hle
  started := by
    intro hrunning
    have hstill (hbefore : w.coordinator.phase = .running) :
        (if w.completes m then some w.clock else ended).isSome = true := by
      split
      · rfl
      · exact hd.started hbefore
    cases h.startup m with
    | bides hbides => exact hstill (hbides.running hrunning)
    | refused _ _ _ _ hphase => exact hstill (hphase.symm.trans hrunning)
    | launches _ _ hevents =>
      have hcompletes : w.completes m = true := by
        unfold completes
        rw [hevents]
        rfl
      rw [hcompletes]
      rfl

theorem dated_run (id : String) (checked : Checked) (timer : Timer) (moves : List (Move α β))
    (hforward : (created id checked timer : World α β).Forward moves) :
    ((created id checked timer : World α β).run moves).Dated
      ((created id checked timer : World α β).lastTime? opensBundle moves)
      ((created id checked timer : World α β).lastTime? completes moves) := by
  induction moves using List.reverseRecOn with
  | nil =>
    exact ⟨Int.le_refl _, fun hopen ↦ (by cases hopen), fun _ hnone ↦ (by cases hnone),
      fun hrunning ↦ (by cases hrunning)⟩
  | append_singleton moves m ih =>
    obtain ⟨hbefore, hclock, -⟩ := (forward_append _ _ _).mp hforward
    rw [run_snoc, lastTime?_snoc, lastTime?_snoc]
    exact (ih hbefore).step (reaches_run (orderly_created id checked timer) moves) hclock

theorem Forward.le_run {moves : List (Move α β)} (h : w.Forward moves) :
    w.clock ≤ (w.run moves).clock := by
  induction moves generalizing w with
  | nil => exact Int.le_refl _
  | cons m moves ih => exact Int.le_trans h.1 (ih h.2)

theorem Reaches.policy (h : Reaches (created id checked timer) w t) :
    w.coordinator.policy = checked.policy := by
  induction h with
  | start => rfl
  | advance _ hadvance ih =>
    cases hadvance with
    | declines | retimes => exact ih
    | joins q d s hjoins => exact hjoins.policy.trans ih
    | turns i call answer out hcall hlock hturn => exact hturn.policy.trans ih

/-! ### Looking at the clock -/

/-- An age check looks at the clock: it is made while the coordinator runs, or it gets the lock. -/
inductive Looks (w : World α β) (k : Nat) : Move α β → Prop
  | issued (q : Request α) (hq : q.IsAgeCheck) (hk : k = w.calls.length)
      (hphase : w.coordinator.phase = .running) : w.Looks k (.issue q)
  | granted (q : Request α) (a : Except Failure (List β)) (hq : q.IsAgeCheck)
      (hcall : w.calls[k]? = some ⟨q, .queued⟩) (hlock : w.holdsLock k = true) :
      w.Looks k (.proceed k a)

/-- An age check that looks at the clock closes the open bundle, or finds it too young, or waits for
the lock to look again. -/
theorem Reaches.look_cases (h : Reaches (created id checked timer) w t) (hlooks : w.Looks k m) :
    (w.step m).coordinator.slot.isOpen = false ∨
      ((w.step m).coordinator.slot = w.coordinator.slot ∧
        (w.coordinator.phase = .running → w.coordinator.isExpired = false)) ∨
      ∃ q : Request α, q.IsAgeCheck ∧ (w.step m).calls[k]? = some ⟨q, .queued⟩ := by
  cases hlooks with
  | issued q hq hk hphase =>
    subst hk
    have hstep : w.step (.issue q) = ⟨(w.coordinator.begin w.calls.length q : _ × Stage α β).1,
      w.calls ++ [⟨q, (w.coordinator.begin w.calls.length q : _ × Stage α β).2⟩]⟩ := rfl
    rw [hstep]
    rcases Coordinator.begin_cases (β := β) w.coordinator w.calls.length q with
      ⟨r, hdeclines, hbegin⟩ | ⟨d, s, hjoins, hnext⟩
    · rw [hbegin]
      have hearly : w.coordinator.early q = some r := by
        refine hdeclines.resolve_right fun hshutdown ↦ ?_
        rcases hq with hq | hq <;> cases hq.symm.trans hshutdown.1
      by_cases hopen : w.coordinator.slot.isOpen = true
      · refine .inr (.inl ⟨rfl, fun _ ↦ ?_⟩)
        by_contra hexpired
        rw [Bool.not_eq_false] at hexpired
        rcases hq with rfl | rfl <;>
          simp [Coordinator.early, hphase, hopen, hexpired] at hearly
      · exact .inl (Bool.eq_false_iff.mpr hopen)
    · have hd : d = w.coordinator ∧ s = .queued := by
        cases hjoins with
        | asks => exact ⟨rfl, rfl⟩
        | stops h | shutsDown h => rcases hq with hq | hq <;> cases hq.symm.trans h
      obtain ⟨rfl, rfl⟩ := hd
      rcases hnext with ⟨-, hbegin⟩ | ⟨hfree, hturn⟩
      · rw [hbegin]
        exact .inr (.inr ⟨q, hq, List.getElem?_concat_length⟩)
      · have hacting : w.acting.2.stage.operation? = none := by
          simp [acting, hfree, Stage.operation?]
        rcases hturn.looks hq fun hopen ↦ h.hasUnit_of_open hacting hopen with hshut | hyoung
        · exact .inl hshut
        · exact .inr (.inl hyoung)
  | granted q a hq hcall hlock =>
    have hstep : w.step (.proceed k a) = w.proceed k a := rfl
    rw [hstep]
    rcases (h.orderly (orderly_created id checked timer)).proceed_turns k a with
      ⟨hstays, -⟩ | ⟨call, out, hcall', hholder, hturn, hproceed, -⟩
    · rw [hstays]
      exact .inr (.inr ⟨q, hq, hcall⟩)
    · rw [hcall, Option.some.injEq] at hcall'
      subst hcall'
      have hacting : w.acting.2.stage.operation? = none := by
        rw [acting_of_holder hholder hcall]
        rfl
      rw [hproceed]
      rcases hturn.looks hq fun hopen ↦ h.hasUnit_of_open hacting hopen with hshut | hyoung
      · exact .inl hshut
      · exact .inr (.inl hyoung)

/-- How far an age check has got that has looked at the clock: any open bundle was too young then;
or the check waits to look again; or the coordinator is about to stop. -/
inductive Attended (l : Limits) (time : Int) (k : Nat) (w : World α β) (begun : Option Int) : Prop
  | young (h : w.coordinator.slot.isOpen = true →
      ∃ s, begun = some s ∧ time < s + l.policy.maxAge.toMillis)
  | waits (q : Request α) (hq : q.IsAgeCheck) (hcall : w.calls[k]? = some ⟨q, .queued⟩)
  | leaves (h : w.Leaving)

theorem Attended.mono {later : Int} (h : w.Attended l later k begun) (hle : time ≤ later) :
    w.Attended l time k begun := by
  cases h with
  | young hyoung =>
    refine .young fun hopen ↦ ?_
    obtain ⟨s, hs, hlt⟩ := hyoung hopen
    exact ⟨s, hs, Int.lt_of_le_of_lt hle hlt⟩
  | waits q hq hcall => exact .waits q hq hcall
  | leaves h => exact .leaves h

theorem Dated.attended (hd : w.Dated begun ended)
    (h : Reaches (created id checked timer) w t) (hpolicy : w.coordinator.policy = l.policy)
    (hlooks : w.Looks k m) : (w.step m).Attended l w.clock k
      (if w.opensBundle m then some w.clock else begun) := by
  rcases h.look_cases hlooks with hshut | ⟨hslot, hyoung⟩ | ⟨q, hq, hcall⟩
  · exact .young fun hopen ↦ absurd (hshut.symm.trans hopen) (by simp)
  · by_cases hopen : w.coordinator.slot.isOpen = true
    · by_cases hrunning : w.coordinator.phase = .running
      · have hage := (Coordinator.isExpired_iff hpolicy).not.mp (by simp [hyoung hrunning])
        obtain ⟨s, hs, hle⟩ := hd.opened hopen
        rw [opensBundle_of_open hopen]
        exact .young fun _ ↦ ⟨s, hs, by unfold clock; omega⟩
      · -- a bundle that is open in another phase is left to the stop that has begun
        have hunopened := h.not_unopened hopen
        have hleaving : w.Leaving := by
          refine ⟨?_, hunopened⟩
          have hcreated : w.coordinator.phase ≠ .created := fun hphase ↦ hunopened (.inl hphase)
          revert hrunning hcreated
          cases w.coordinator.phase <;> decide
        have horderly := h.orderly (orderly_created id checked timer)
        exact .leaves (hleaving.reaches (Reaches.start.step horderly m))
    · exact .young fun hopen' ↦ absurd ((congrArg Slot.isOpen hslot).symm.trans hopen') hopen
  · exact .waits q hq hcall

theorem Attended.step (ha : w.Attended l time k begun) (hd : w.Dated begun ended)
    (h : Reaches (created id checked timer) w t) (hpolicy : w.coordinator.policy = l.policy)
    (hle : time ≤ w.clock) (m : Move α β) : (w.step m).Attended l time k
      (if w.opensBundle m then some w.clock else begun) := by
  have horderly := h.orderly (orderly_created id checked timer)
  cases ha with
  | young hyoung =>
    refine .young fun hopen ↦ ?_
    cases hbefore : w.coordinator.slot.isOpen with
    | true =>
      rw [opensBundle_of_open hbefore]
      exact hyoung hbefore
    | false =>
      have hpos := l.maxAge_pos
      rw [opensBundle_of_shut hbefore hopen]
      exact ⟨w.clock, rfl, by omega⟩
  | waits q hq hcall =>
    cases m with
    | issue q' =>
      have hlt := (List.getElem?_eq_some_iff.mp hcall).1
      exact .waits q hq ((List.getElem?_append_left hlt).trans hcall)
    | clock | timerFaults => exact .waits q hq hcall
    | proceed i a =>
      by_cases hturns : i = k ∧ w.holdsLock k = true
      · obtain ⟨rfl, hlock⟩ := hturns
        exact (hd.attended h hpolicy (.granted q a hq hcall hlock)).mono hle
      · refine .waits q hq ?_
        change (w.proceed i a).calls[k]? = _
        rcases horderly.proceed_turns i a with ⟨hstays, -⟩ |
          ⟨call, out, -, hholder, -, hproceed, -⟩
        · rw [hstays, hcall]
        · have hne : i ≠ k := by
            rintro rfl
            exact hturns ⟨rfl, by simp [holdsLock, hholder]⟩
          rw [hproceed, ← hcall]
          exact List.getElem?_set_ne hne
  | leaves hleaving => exact .leaves (hleaving.reaches (Reaches.start.step horderly m))

/-- From the moment at which an age check looks at the clock. -/
theorem attended_run (id : String) (l : Limits) (fallbacks : List Fallback) (timer : Timer)
    (past : List (Move α β)) (m : Move α β) (post : List (Move α β))
    (hforward : (created id ⟨l.policy, fallbacks⟩ timer : World α β).Forward (past ++ m :: post))
    (hlooks : ((created id ⟨l.policy, fallbacks⟩ timer : World α β).run past).Looks k m) :
    let first : World α β := created id ⟨l.policy, fallbacks⟩ timer
    (first.run (past ++ m :: post)).Attended l (first.run past).clock k
      (first.lastTime? opensBundle (past ++ m :: post)) := by
  intro first
  have hcreated := orderly_created (α := α) (β := β) id ⟨l.policy, fallbacks⟩ timer
  induction post using List.reverseRecOn with
  | nil =>
    obtain ⟨hbefore, -⟩ := (forward_append _ _ _).mp hforward
    have hreaches := reaches_run hcreated past
    rw [run_snoc, lastTime?_snoc]
    exact (dated_run id _ timer past hbefore).attended hreaches hreaches.policy hlooks
  | append_singleton post m' ih =>
    rw [← List.cons_append, ← List.append_assoc] at hforward ⊢
    obtain ⟨hbefore, -⟩ := (forward_append _ _ _).mp hforward
    have hreaches := reaches_run hcreated (past ++ m :: post)
    have hle : (first.run past).clock ≤ (first.run (past ++ m :: post)).clock := by
      rw [run_append]
      exact ((forward_append _ _ _).mp hbefore).2.le_run
    rw [run_snoc, lastTime?_snoc]
    exact (ih hbefore).step (dated_run id _ timer _ hbefore) hreaches hreaches.policy hle m'

/-- With no call in flight, the age check is over. -/
theorem Attended.young_of_idle (ha : w.Attended l time k begun)
    (h : Reaches (created id checked timer) w t) (hidle : w.Idle)
    (hopen : w.coordinator.slot.isOpen = true) :
    ∃ s, begun = some s ∧ time < s + l.policy.maxAge.toMillis := by
  cases ha with
  | young hyoung => exact hyoung hopen
  | waits q _ hcall => cases hidle _ (List.mem_of_getElem? hcall)
  | leaves hleaving =>
    have hlock := (h.orderly (orderly_created id checked timer)).lock_of_idle hidle
    have hacting : w.acting.2.stage.operation? = none := by
      simp [acting, hlock, Stage.operation?]
    have hthere := h.hasUnit_of_open hacting hopen
    have hgone := (h.released_of_idle hidle hleaving.phase).hasUnit
    exact absurd (hgone.symm.trans hthere) (by simp)

/-- A call that comes to close a bundle for its age has been asked to, or is an age check that has
found the age limit passed. -/
theorem Reaches.closes_by_age (h : Reaches (created id checked timer) w t) {q : Request α}
    {items : UInt64}
    (hclosing : (w.step m).calls[k]? = some ⟨q, .finishing ⟨.bundleAge, items⟩⟩)
    (hnew : w.calls[k]? ≠ some ⟨q, .finishing ⟨.bundleAge, items⟩⟩) :
    q = .finish .bundleAge ∨
      q.IsAgeCheck ∧ w.coordinator.phase = .running ∧ w.coordinator.isExpired = true := by
  cases m with
  | clock | timerFaults => exact absurd hclosing hnew
  | issue q' =>
    change (w.calls ++ [⟨q', (w.coordinator.begin w.calls.length q' : _ × Stage α β).2⟩])[k]? = _
      at hclosing
    rcases call_append hclosing with hbefore | ⟨-, hcall⟩
    · exact absurd hbefore hnew
    · obtain ⟨rfl, hstage⟩ := Call.mk.inj hcall
      rcases Coordinator.begin_cases (β := β) w.coordinator w.calls.length q with
        ⟨r, -, hbegin⟩ | ⟨d, s, hjoins, ⟨-, hbegin⟩ | ⟨-, hturn⟩⟩
      · rw [hbegin] at hstage
        cases hstage
      · rw [hbegin] at hstage
        cases hjoins <;> cases hstage
      · have hcause := hturn.closes_by_age hstage.symm
        cases hjoins with
        | asks => exact hcause
        | stops hq | shutsDown hq =>
          subst hq
          rcases hcause with hq | ⟨hq | hq, -⟩ <;> cases hq
  | proceed i a =>
    change (w.proceed i a).calls[k]? = _ at hclosing
    rcases (h.orderly (orderly_created id checked timer)).proceed_turns i a with
      ⟨hstays, -⟩ | ⟨call, out, hcall, hholder, hturn, hproceed, -⟩
    · rw [hstays] at hclosing
      exact absurd hclosing hnew
    · rw [hproceed] at hclosing
      rcases call_set hclosing with ⟨rfl, hcall'⟩ | ⟨-, hbefore⟩
      · obtain ⟨hq, hstage⟩ := Call.mk.inj hcall'
        rw [hq]
        exact hturn.closes_by_age hstage.symm
      · exact absurd hbefore hnew

/-- On a clock that never goes back, whatever fails and however calls interleave: an age check that
has looked at the clock leaves no bundle open, once no call is in flight, that had reached the age
limit when it looked; and unless it is asked for expressly, a bundle is closed for its age only by
an age check that finds, with the lock, that the age limit has passed since a close was completed
last, or a start. -/
theorem age_closes_punctual (id : String) (l : Limits) (fallbacks : List Fallback) (timer : Timer)
    (moves : List (Move α β))
    (hforward : (created id ⟨l.policy, fallbacks⟩ timer : World α β).Forward moves) :
    let first : World α β := created id ⟨l.policy, fallbacks⟩ timer
    ∀ past m post, moves = past ++ m :: post →
      (∀ k, (first.run past).Looks k m → (first.run moves).Idle →
        (first.run moves).coordinator.slot.isOpen = true →
        ∃ time, first.lastTime? opensBundle moves = some time ∧
          (first.run past).clock < time + l.policy.maxAge.toMillis) ∧
      ∀ (k : Nat) (q : Request α) (items : UInt64),
        ((first.run past).step m).calls[k]? = some ⟨q, .finishing ⟨.bundleAge, items⟩⟩ →
        (first.run past).calls[k]? ≠ some ⟨q, .finishing ⟨.bundleAge, items⟩⟩ →
        q = .finish .bundleAge ∨ q.IsAgeCheck ∧
          ∃ time, first.lastTime? completes past = some time ∧
            time + l.policy.maxAge.toMillis ≤ (first.run past).clock := by
  intro first past m post hmoves
  subst hmoves
  have hcreated := orderly_created (α := α) (β := β) id ⟨l.policy, fallbacks⟩ timer
  have hpast : Reaches first (first.run past) _ := reaches_run hcreated past
  obtain ⟨hbefore, -⟩ := (forward_append _ _ _).mp hforward
  have hdated : (first.run past).Dated _ _ := dated_run id ⟨l.policy, fallbacks⟩ timer past hbefore
  constructor
  · intro k hlooks hidle hopen
    exact (attended_run id l fallbacks timer past m post hforward hlooks).young_of_idle
      (reaches_run hcreated _) hidle hopen
  · intro k q items hclosing hnew
    refine (hpast.closes_by_age hclosing hnew).imp_right fun ⟨hq, hrunning, hexpired⟩ ↦ ⟨hq, ?_⟩
    obtain ⟨time, htime⟩ := Option.isSome_iff_exists.mp (hdated.started hrunning)
    have hle := hdated.completed time htime
    have hage := (Coordinator.isExpired_iff hpast.policy).mp hexpired
    exact ⟨time, htime, by unfold clock; omega⟩

/-- A coordinator whose bundles are closed after a tenth of a second. -/
def brisk : World Nat Nat :=
  created "brisk" ⟨({ ageMillis := 100 } : Limits).policy, []⟩ { kind := .manual false, now := 0 }

/-- A bundle is open that has reached the age limit. -/
def agedBundle : List (Move Nat Nat) :=
  [.issue .start, .proceed 0 (.ok []), .issue (.submit 1), .proceed 1 (.ok []), .proceed 1 (.ok []),
    .clock 100]

/-- It takes one more item, with a barrier and another item in line. -/
def crowded : List (Move Nat Nat) :=
  agedBundle ++ [.issue (.submit 2), .issue (.barrier 7), .issue (.submit 3)]

/-- The barrier closes the bundle, the item opens the next one, and a tick comes to the lock. -/
def overtakenTick : List (Move Nat Nat) :=
  [.proceed 2 (.ok []), .proceed 3 (.ok []), .proceed 3 (.ok []), .proceed 3 (.ok []),
    .proceed 4 (.ok []), .proceed 4 (.ok []), .proceed 4 (.ok []), .proceed 5 (.ok [])]

/-- A tick that is made without anyone in line closes the bundle, one that is made behind the others
leaves the next bundle open. -/
theorem age_closes_punctual_overtaken :
    brisk.Forward (agedBundle ++ [.issue .tick]) ∧
      (∃ time, brisk.lastTime? completes agedBundle = some time ∧ time + 100 ≤ 100) ∧
      brisk.Forward (crowded ++ .issue .tick :: overtakenTick) ∧
      ∃ time, brisk.lastTime? opensBundle (crowded ++ .issue .tick :: overtakenTick) = some time ∧
        100 < time + 100 := by
  have hforward : brisk.Forward (agedBundle ++ [.issue .tick]) := by decide
  have hforward' : brisk.Forward (crowded ++ .issue .tick :: overtakenTick) := by decide
  have hcloses := (age_closes_punctual "brisk" { ageMillis := 100 } []
    { kind := .manual false, now := 0 } _ hforward agedBundle (.issue .tick) [] rfl).2 2 .tick 1
      (by decide) (by decide)
  have hleaves := (age_closes_punctual "brisk" { ageMillis := 100 } []
    { kind := .manual false, now := 0 } _ hforward' crowded (.issue .tick) overtakenTick rfl).1 5
      (.issued .tick (.inl rfl) (by decide) (by decide)) (by decide) (by decide)
  exact ⟨hforward, (hcloses.resolve_left (by simp)).2, hforward', hleaves⟩

end World

end Bundling
