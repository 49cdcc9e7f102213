import Bundling.Proofs.EffectiveLimits
import Bundling.Proofs.OneAtATime
import Mathlib.Data.List.Induction

/-!
What a coordinator is for. Without the lock, the flags and the counters, a started coordinator that
gets one call after the other and whose collaborators never fail is a machine that knows three
things: the items of the open bundle, the watermark held behind it, and the time of the last close.
The coordinator writes the machine's journal and shows the machine's state, whatever its limits.
-/

set_option autoImplicit false
set_option relaxedAutoImplicit false

namespace Bundling

/-- Counts several closes. -/
def Closes.bumpAll (c : Closes) (ts : List Trigger) : Closes := ts.foldl bump c

/-! ### The machine -/

/-- What happens to a started coordinator. -/
inductive Input (α : Type) where
  | submit (item : α)
  | watermark (w : Watermark)
  | barrier (id : UInt64)
  | endInput
  | finish (trigger : Trigger)
  | tick
  | clock (now : Int64)
  deriving DecidableEq, Inhabited

structure Machine (α : Type) where
  items : List α
  hold : Option Watermark
  lastClose : Int
  deriving DecidableEq, Inhabited

namespace Machine

variable {α : Type}

/-- Closes the open bundle, if there is one: its end, its results, and what was held behind it. -/
def flush (now : Int) (m : Machine α) : Journal α × Machine α :=
  match m.items with
  | [] => ([], m)
  | x :: xs =>
    (.finished :: (x :: xs).map .emitted ++ m.hold.toList.map .forwarded, ⟨[], none, now⟩)

theorem flush_of_nil {m : Machine α} (h : m.items = []) (now : Int) : m.flush now = ([], m) := by
  unfold flush
  rw [h]

theorem flush_of_ne_nil {m : Machine α} (h : m.items ≠ []) (now : Int) :
    m.flush now = (.finished :: m.items.map .emitted ++ m.hold.toList.map .forwarded,
      ⟨[], none, now⟩) := by
  unfold flush
  cases hitems : m.items with
  | nil => exact absurd hitems h
  | cons x xs => rfl

/-- Closes the open bundle if it is full. -/
def flushIfFull (maxItems : Nat) (now : Int) (m : Machine α) : Journal α × Machine α :=
  if m.items.length = maxItems then m.flush now else ([], m)

/-- Takes one more item, into a new bundle if none is open. -/
def take (maxItems : Nat) (now : Int) (m : Machine α) (x : α) : Journal α × Machine α :=
  let opening : Journal α := if m.items.isEmpty then [.started] else []
  let (written, next) := flushIfFull maxItems now { m with items := m.items ++ [x] }
  (opening ++ .processed x :: written, next)

def step (policy : Policy) (now : Int) (m : Machine α) : Input α → Journal α × Machine α
  | .submit x => m.take policy.maxItems.toNat now x
  | .watermark w =>
    if w.isTerminal then ((m.flush now).1 ++ [.forwarded w], (m.flush now).2)
    else if m.items.isEmpty then ([.forwarded w], m)
    else ([], { m with hold := some w })
  | .barrier _ | .endInput | .finish _ => m.flush now
  | .tick => if policy.maxAge.toMillis ≤ now - m.lastClose then m.flush now else ([], m)
  | .clock _ => ([], m)

/-- What a close of the open bundle is put down to, if there is one. -/
def flushed (t : Trigger) (m : Machine α) : List Trigger := if m.items.isEmpty then [] else [t]

def flushedIfFull (maxItems : Nat) (m : Machine α) : List Trigger :=
  if m.items.length = maxItems then m.flushed .itemCount else []

/-- What the closes of a step are put down to. -/
def triggers (policy : Policy) (now : Int) (m : Machine α) : Input α → List Trigger
  | .submit x => flushedIfFull policy.maxItems.toNat { m with items := m.items ++ [x] }
  | .watermark w => if w.isTerminal then m.flushed .terminalWatermark else []
  | .barrier _ => m.flushed .barrier
  | .endInput => m.flushed .endOfInput
  | .finish t => m.flushed t
  | .tick => if policy.maxAge.toMillis ≤ now - m.lastClose then m.flushed .bundleAge else []
  | .clock _ => []

/-- What the machine writes, and where it ends, from a time on. -/
def run (policy : Policy) (now : Int) (m : Machine α) : List (Input α) → Journal α × Machine α
  | [] => ([], m)
  | .clock later :: inputs => m.run policy later.toInt inputs
  | input :: inputs =>
    let (written, next) := m.step policy now input
    let (rest, last) := next.run policy now inputs
    (written ++ rest, last)

end Machine

namespace Machine

variable {α : Type}

theorem length_flush {maxItems : Nat} {m : Machine α} (h : m.items.length < maxItems) (now : Int) :
    (m.flush now).2.items.length < maxItems := by
  unfold flush
  split
  · exact h
  · exact Nat.lt_of_le_of_lt (Nat.zero_le _) h

/-- The open bundle never has as many items as would close it. -/
theorem length_step {policy : Policy} (now : Int) {m : Machine α}
    (h : m.items.length < policy.maxItems.toNat) (input : Input α) :
    (m.step policy now input).2.items.length < policy.maxItems.toNat := by
  have hflush := length_flush h now
  cases input with
  | submit x =>
    change (flushIfFull _ _ _).2.items.length < _
    unfold flushIfFull
    split
    case isTrue =>
      rw [flush_of_ne_nil (by simp)]
      exact Nat.lt_of_le_of_lt (Nat.zero_le _) h
    case isFalse hlength =>
      change (m.items ++ [x]).length ≠ _ at hlength
      change (m.items ++ [x]).length < _
      rw [List.length_append, List.length_singleton] at hlength ⊢
      omega
  | watermark w =>
    unfold step
    dsimp only
    split
    · exact hflush
    · split <;> exact h
  | barrier | endInput | finish => exact hflush
  | tick =>
    unfold step
    dsimp only
    split
    · exact hflush
    · exact h
  | clock => exact h

end Machine

/-! ### Limits that words can hold -/

/-- A word that is not negative is up to the nearest word of an integer exactly if it is up to the
integer. -/
theorem le_saturate_iff {a : Int64} (h : 0 ≤ a.toInt) (n : Int) : a ≤ saturate n ↔ a.toInt ≤ n := by
  have hlt := Int64.toInt_lt a
  have hmin : Int64.minValue.toInt = -2 ^ 63 := Int64.toInt_minValue
  have hmax : Int64.maxValue.toInt = 2 ^ 63 - 1 := Int64.toInt_maxValue
  rw [Int64.le_iff_toInt_le]
  unfold saturate
  split
  case isTrue hbelow => omega
  case isFalse hbelow =>
    split
    case isTrue habove => omega
    case isFalse habove => rw [Int64.toInt_ofInt_of_le (by omega) (by omega)]

namespace Timer

theorem now_schedule (t : Timer) (periodMillis : Nat) :
    (t.schedule periodMillis).2.1.now = t.now := by
  unfold schedule
  dsimp only
  split <;> rfl

end Timer

namespace Coordinator

/-- The age limit has passed exactly if the clock is ahead of the last close by so much. -/
theorem isExpired_iff {c : Coordinator} {l : Limits} (hpolicy : c.policy = l.policy) :
    c.isExpired = true ↔
      (l.policy.maxAge.toMillis : Int) ≤ c.timer.now.toInt - c.slot.lastClose.toInt := by
  have hage := l.toInt_maxAgeMillis
  have hsaturate := le_saturate_iff (a := l.policy.maxAgeMillis) (by omega)
    (c.timer.now.toInt - c.slot.lastClose.toInt)
  unfold isExpired Slot.age
  rw [hpolicy, decide_eq_true_iff, hsaturate, hage]

/-- A coordinator whose unit is open keeps the registration that the timer has given it. -/
theorem opened_of_schedule_eq {α β : Type} {c : Coordinator} {index : Nat} {timer : Timer}
    {given : List Notice}
    (h : c.timer.schedule c.policy.checkPeriod.toMillis = (.ok index, timer, given)) :
    ∃ notices : List Notice, (c.opened : Coordinator × Stage α β) =
      ({ c with
          phase := .running, slot := c.slot.reset c.timer.now, timer := timer
          registration := some index, notices := notices } : Coordinator).leave .done := by
  unfold opened schedule
  dsimp only
  rw [h]
  exact ⟨_, rfl⟩

/-- A coordinator whose unit is open runs once the timer has taken its registration. -/
theorem opened_of_schedule {α β : Type} {c : Coordinator} {index : Nat}
    (h : (c.timer.schedule c.policy.checkPeriod.toMillis).1 = .ok index) :
    ∃ (timer : Timer) (notices : List Notice), timer.now = c.timer.now ∧
      (c.opened : Coordinator × Stage α β) =
        ({ c with
            phase := .running, slot := c.slot.reset c.timer.now, timer := timer
            registration := some index, notices := notices } : Coordinator).leave .done := by
  have hnow := c.timer.now_schedule c.policy.checkPeriod.toMillis
  obtain ⟨timer, given, hschedule⟩ : ∃ timer given,
      c.timer.schedule c.policy.checkPeriod.toMillis = (.ok index, timer, given) :=
    ⟨_, _, Prod.ext h rfl⟩
  obtain ⟨notices, hopened⟩ := opened_of_schedule_eq (α := α) (β := β) hschedule
  rw [hschedule] at hnow
  exact ⟨timer, notices, hnow, hopened⟩

end Coordinator

/-! ### A close -/

namespace Coordinator

/-- The coordinator once a close is complete: a held watermark has been let go. -/
def closed (c : Coordinator) (close : Close) (total : Nat) : Coordinator :=
  match c.slot.held with
  | some w => (c.settled close total).forwarded w
  | none => c.settled close total

/-- A complete close resets the slot, is counted for what triggered it, and touches nothing else but
other counters and notices. -/
theorem closed_eq (c : Coordinator) (close : Close) (total : Nat) :
    ∃ (tally : Tally) (notices : List Notice),
      tally.closes = c.tally.closes.bump close.trigger ∧ c.closed close total =
        { c with
          slot := ⟨c.slot.isOpen, 0, c.timer.now, none⟩, tally := tally, notices := notices } := by
  unfold closed
  split <;> exact ⟨_, _, rfl, rfl⟩

end Coordinator

namespace Rig

variable {α : Type} {r : Rig α} {q : Request α} {c : Coordinator} {recorder : Recorder α}

/-- The results of a close come out one by one. -/
theorem ComesBy.emits {close : Close} {total : Nat} {results : List α} (i : Nat)
    (h : r.ComesBy q (c.emitNext i q close total results) recorder) (hq : q ≠ .stop)
    (hrecorder : recorder.Willing) :
    r.ComesBy q (c.emitNext i q close total [])
      { recorder with journal := recorder.journal ++ results.map .emitted } := by
  induction results generalizing recorder with
  | nil => simpa using h
  | cons x results ih =>
    have hnext := ih (h.resume i (.emit x) hq hrecorder rfl) (hrecorder.carryOut _)
    simpa [Recorder.carryOut, Recorder.note] using hnext

/-- A close that has begun is completed: the bundle is finished, its results are emitted, and what
was held behind it is let go. -/
theorem ComesBy.closes {close : Close} (i : Nat) (h : r.ComesBy q (c, .finishing close) recorder)
    (hq : q ≠ .stop) (hrecorder : recorder.Willing) (hcopies : recorder.copies = 1) :
    r.ComesBy q ((c.closed close recorder.pending.length).afterClose i q (.ok true))
      { recorder with
        journal := recorder.journal ++ (.finished :: recorder.pending.map .emitted ++
          c.slot.held.toList.map .forwarded)
        pending := [] } := by
  have hfinished := hrecorder.carryOut .finishBundle
  have hdraining : r.ComesBy q (c, .draining close) (recorder.note .finished) :=
    h.resume i .finishBundle hq hrecorder rfl
  have hresults : recorder.pending.flatMap (List.replicate recorder.copies) = recorder.pending := by
    rw [hcopies]
    exact List.flatMap_singleton' recorder.pending
  have hemitting : r.ComesBy q
      (c.emitNext i q close recorder.pending.length recorder.pending)
      { recorder.note .finished with pending := [] } := by
    have hdrained := hdraining.resume i .drainResults hq hfinished rfl
    change r.ComesBy q (c.emitNext i q close
      (recorder.pending.flatMap (List.replicate recorder.copies)).length
      (recorder.pending.flatMap (List.replicate recorder.copies))) _ at hdrained
    rw [hresults] at hdrained
    exact hdrained
  have hemitted := hemitting.emits i hq ⟨hrecorder.failing, hrecorder.channel⟩
  unfold Coordinator.closed
  cases hheld : c.slot.held with
  | none =>
    rw [Coordinator.emitNext_of_not_held c i hheld] at hemitted
    simpa [Recorder.note] using hemitted
  | some w =>
    rw [Coordinator.emitNext_of_held c i hheld] at hemitted
    have hreleased := hemitted.resume i (.forward w) hq ⟨hrecorder.failing, hrecorder.channel⟩ rfl
    simpa [Recorder.note, Recorder.carryOut, Coordinator.resume] using hreleased

/-! ### What the coordinator shows -/

/-- A started coordinator shows the machine's state, and its recorder has the items of the open
bundle. -/
structure Shows (l : Limits) (now : Int64) (m : Machine α) (c : Coordinator)
    (recorder : Recorder α) : Prop where
  phase : c.phase = .running
  latched : c.latched = none
  hasUnit : c.hasUnit = true
  policy : c.policy = l.policy
  clock : c.timer.now = now
  isOpen : c.slot.isOpen = !m.items.isEmpty
  count : c.slot.items.toNat = m.items.length
  held : c.slot.held = m.hold
  lastClose : c.slot.lastClose.toInt = m.lastClose
  willing : recorder.Willing
  copies : recorder.copies = 1
  pending : recorder.pending = m.items

variable {l : Limits} {now : Int64} {m : Machine α}

/-- Notices, counters of work done, and the lock do not matter. -/
theorem Shows.of_eq (h : Shows l now m c recorder) {d : Coordinator} (hphase : d.phase = c.phase)
    (hlatched : d.latched = c.latched) (hunit : d.hasUnit = c.hasUnit)
    (hpolicy : d.policy = c.policy) (htimer : d.timer = c.timer) (hslot : d.slot = c.slot) :
    Shows l now m d recorder where
  phase := hphase.trans h.phase
  latched := hlatched.trans h.latched
  hasUnit := hunit.trans h.hasUnit
  policy := hpolicy.trans h.policy
  clock := htimer ▸ h.clock
  isOpen := hslot ▸ h.isOpen
  count := hslot ▸ h.count
  held := hslot ▸ h.held
  lastClose := hslot ▸ h.lastClose
  willing := h.willing
  copies := h.copies
  pending := h.pending

theorem Shows.note (h : Shows l now m c recorder) (e : Entry α) :
    Shows l now m c (recorder.note e) :=
  { h with willing := ⟨h.willing.failing, h.willing.channel⟩ }

/-- A close under the lock is the machine's flush. -/
theorem Shows.flush (h : Shows l now m c recorder) {t : Trigger} (i : Nat)
    (hcomes : r.ComesBy q (c.beginClose i q t) recorder) (hq : q ≠ .stop) :
    ∃ (d : Coordinator) (recorder' : Recorder α) (closed : Bool),
      r.ComesBy q (d.afterClose i q (.ok closed)) recorder' ∧
      Shows l now (m.flush now.toInt).2 d recorder' ∧
      recorder'.journal = recorder.journal ++ (m.flush now.toInt).1 ∧
      d.tally.closes = c.tally.closes.bumpAll (m.flushed t) := by
  have hisOpen := h.isOpen
  cases hitems : m.items with
  | nil =>
    have hidle : (c.beginClose i q t : Coordinator × Stage α α) =
        c.afterClose i q (.ok false) := by
      unfold Coordinator.beginClose
      rw [hisOpen, hitems, h.hasUnit]
      rfl
    rw [hidle] at hcomes
    rw [Machine.flush_of_nil hitems, Machine.flushed, hitems]
    exact ⟨c, recorder, false, hcomes, h, (List.append_nil _).symm, rfl⟩
  | cons x xs =>
    have hbegins : (c.beginClose i q t : Coordinator × Stage α α) =
        ({ c with slot := c.slot.tryClose.2 }, .finishing ⟨t, c.slot.items⟩) := by
      unfold Coordinator.beginClose
      rw [hisOpen, hitems, h.hasUnit]
      rfl
    rw [hbegins] at hcomes
    have hclosed := hcomes.closes i hq h.willing h.copies
    obtain ⟨tally, notices, hcloses, heq⟩ := Coordinator.closed_eq
      { c with slot := c.slot.tryClose.2 } ⟨t, c.slot.items⟩ recorder.pending.length
    rw [Machine.flush_of_ne_nil (by simp [hitems]), Machine.flushed, hitems]
    refine ⟨_, _, true, hclosed, ?_, ?_, ?_⟩
    · rw [heq]
      exact ⟨h.phase, h.latched, h.hasUnit, h.policy, h.clock, rfl, rfl, rfl,
        congrArg Int64.toInt h.clock, ⟨h.willing.failing, h.willing.channel⟩, h.copies, rfl⟩
    · rw [h.pending]
      change _ = recorder.journal ++ (_ :: _ ++ _)
      rw [← h.held, hitems]
      rfl
    · rw [heq]
      exact hcloses

theorem Shows.running_eq (h : Shows l now m c recorder) (doing : String) :
    c.running doing = .ok () := by
  unfold Coordinator.running
  rw [h.latched, if_pos h.phase]

/-- The age limit has passed on the coordinator's words exactly if it has on the machine's time. -/
theorem Shows.isExpired_iff (h : Shows l now m c recorder) :
    c.isExpired = true ↔ (l.policy.maxAge.toMillis : Int) ≤ now.toInt - m.lastClose := by
  rw [Coordinator.isExpired_iff h.policy, h.clock, h.lastClose]

/-! ### One input -/

/-- A rig at rest that shows the machine, has written this journal, and has counted these closes. -/
structure Tracks (l : Limits) (now : Int64) (m : Machine α) (r : Rig α) (journal : Journal α)
    (closes : Closes) : Prop where
  lock : r.world.coordinator.lock = {}
  shows : Shows l now m r.world.coordinator r.recorder
  journal_eq : r.recorder.journal = journal
  closes_eq : r.world.coordinator.tally.closes = closes

theorem Shows.leaves (h : Shows l now m c recorder) {reply : Reply}
    (hcomes : r.ComesBy q (c.leave reply) recorder) :
    Tracks l now m (r.attend q) recorder.journal c.tally.closes := by
  have hattend : r.attend q =
      ⟨⟨c.relock {}, r.world.calls ++ [⟨q, .ended reply⟩]⟩, recorder⟩ := hcomes.attend_eq
  rw [hattend]
  exact ⟨rfl, h.of_eq rfl rfl rfl rfl rfl rfl, rfl, rfl⟩

/-- A call that has nothing more to do than to close answers when the close is over. -/
theorem Shows.answers (h : Shows l now m c recorder) {i : Nat} {closed : Bool}
    (hcomes : r.ComesBy q (c.afterClose i q (.ok closed)) recorder) (hstop : q ≠ .stop)
    (hmark : ∀ w, q ≠ .watermark w) :
    Tracks l now m (r.attend q) recorder.journal c.tally.closes := by
  have hparting := Coordinator.parting_afterClose (β := α) c i q (.ok closed)
  generalize (c.afterClose i q (.ok closed) : Coordinator × Stage α α) = out at hparting hcomes
  cases hparting with
  | forwards w _ hq => exact absurd hq (hmark w)
  | answers notices =>
    exact (h.of_eq (d := { c with notices := notices }) rfl rfl rfl rfl rfl rfl).leaves hcomes
  | departs _ _ _ _ hq => exact absurd hq hstop

variable {journal : Journal α} {closes : Closes}

theorem Tracks.flush (h : Tracks l now m r journal closes) {t : Trigger}
    (hcomes : r.ComesBy q (r.world.coordinator.beginClose 0 q t) r.recorder) (hstop : q ≠ .stop)
    (hmark : ∀ w, q ≠ .watermark w) :
    Tracks l now (m.flush now.toInt).2 (r.attend q) (journal ++ (m.flush now.toInt).1)
      (closes.bumpAll (m.flushed t)) := by
  obtain ⟨d, recorder, closed, hends, hshows, hjournal, hcloses⟩ := h.shows.flush 0 hcomes hstop
  have htracks := hshows.answers hends hstop hmark
  rw [hjournal, hcloses, h.journal_eq, h.closes_eq] at htracks
  exact htracks

theorem Tracks.tick (h : Tracks l now m r journal closes) :
    Tracks l now (m.step l.policy now.toInt .tick).2 (r.attend .tick)
      (journal ++ (m.step l.policy now.toInt .tick).1)
      (closes.bumpAll (m.triggers l.policy now.toInt .tick)) := by
  have hstep : m.step l.policy now.toInt .tick =
      if (l.policy.maxAge.toMillis : Int) ≤ now.toInt - m.lastClose then m.flush now.toInt
      else ([], m) := rfl
  have htriggers : m.triggers l.policy now.toInt .tick =
      if (l.policy.maxAge.toMillis : Int) ≤ now.toInt - m.lastClose then m.flushed .bundleAge
      else [] := rfl
  simp only [← h.shows.isExpired_iff] at hstep htriggers
  have hearly :=
    Coordinator.early_of_looksFirst r.world.coordinator (q := (.tick : Request α)) rfl
  have hrestful : r.world.coordinator.restful =
      (m.items.isEmpty || !r.world.coordinator.isExpired) := by
    simp [Coordinator.restful, h.shows.phase, h.shows.isOpen]
  cases hrest : r.world.coordinator.restful with
  | true =>
    have hnothing : m.step l.policy now.toInt .tick = ([], m) ∧
        m.triggers l.policy now.toInt .tick = [] := by
      rw [hstep, htriggers]
      rw [hrest, eq_comm, Bool.or_eq_true] at hrestful
      rcases hrestful with hempty | hyoung
      · rw [Machine.flush_of_nil (List.isEmpty_iff.mp hempty), Machine.flushed, if_pos hempty,
          ite_self, ite_self]
        exact ⟨rfl, rfl⟩
      · rw [if_neg (by simpa using hyoung), if_neg (by simpa using hyoung)]
        exact ⟨rfl, rfl⟩
    rw [hrest, if_pos rfl] at hearly
    rw [attend_of_early hearly, hnothing.1, hnothing.2, List.append_nil]
    exact ⟨h.lock, h.shows, h.journal_eq, h.closes_eq⟩
  | false =>
    rw [hrest, eq_comm, Bool.or_eq_false_iff, Bool.not_eq_false'] at hrestful
    have hcomes : r.ComesBy .tick (r.world.coordinator.enter 0 .tick) r.recorder :=
      comesBy_enter 0 (by rw [← h.lock]; rfl) (by simp) (by simp) (.inl rfl)
    have henter : (r.world.coordinator.enter 0 .tick : Coordinator × Stage α α) =
        r.world.coordinator.beginClose 0 .tick .bundleAge :=
      if_pos ⟨h.shows.phase, hrestful.2⟩
    rw [henter] at hcomes
    rw [hstep, htriggers, if_pos hrestful.2, if_pos hrestful.2]
    exact h.flush hcomes (by simp) (by simp)

theorem Tracks.watermark (h : Tracks l now m r journal closes) (w : Watermark) :
    Tracks l now (m.step l.policy now.toInt (.watermark w)).2 (r.attend (.watermark w))
      (journal ++ (m.step l.policy now.toInt (.watermark w)).1)
      (closes.bumpAll (m.triggers l.policy now.toInt (.watermark w))) := by
  have hrunning := h.shows.running_eq "process watermark"
  have hcomes : r.ComesBy (.watermark w) (r.world.coordinator.enter 0 (.watermark w)) r.recorder :=
    comesBy_enter 0 (by rw [← h.lock]; rfl) (by simp) (by simp)
      (.inr (by simp [Coordinator.early, hrunning]))
  have henter : (r.world.coordinator.enter 0 (.watermark w) : Coordinator × Stage α α) =
      if w.isTerminal then r.world.coordinator.beginClose 0 (.watermark w) .terminalWatermark
      else if m.items.isEmpty then (r.world.coordinator, .forwarding w)
      else (r.world.coordinator.holdBack w).leave .done := by
    simp only [Coordinator.enter, hrunning, h.shows.hasUnit, h.shows.isOpen]
    cases m.items.isEmpty <;> rfl
  -- a watermark that goes on to the sink ends its call there
  have hforwards {d : Coordinator} {n : Machine α} {recorder : Recorder α}
      (hshows : Shows l now n d recorder)
      (hcomes : r.ComesBy (.watermark w) (d, .forwarding w) recorder) :
      Tracks l now n (r.attend (.watermark w)) (recorder.journal ++ [.forwarded w])
        d.tally.closes := by
    have hdone : r.ComesBy (.watermark w) ((d.forwarded w).leave .done)
        (recorder.note (.forwarded w)) :=
      hcomes.resume 0 (.forward w) (by simp) hshows.willing rfl
    exact ((hshows.of_eq (d := d.forwarded w) rfl rfl rfl rfl rfl rfl).note _).leaves hdone
  unfold Machine.step Machine.triggers
  rw [henter] at hcomes
  dsimp only
  split at hcomes
  case isTrue hterminal =>
    obtain ⟨d, recorder, closed, hends, hshows, hjournal, hcloses⟩ :=
      h.shows.flush 0 hcomes (by simp)
    have htracks := hforwards hshows hends
    rw [hjournal, hcloses, h.journal_eq, h.closes_eq, List.append_assoc] at htracks
    rw [if_pos hterminal, if_pos hterminal]
    exact htracks
  case isFalse hterminal =>
    rw [if_neg hterminal, if_neg hterminal]
    split at hcomes
    case isTrue hempty =>
      have htracks := hforwards h.shows hcomes
      rw [h.journal_eq, h.closes_eq] at htracks
      rw [if_pos hempty]
      exact htracks
    case isFalse hopen =>
      have hheld : Shows l now { m with hold := some w } (r.world.coordinator.holdBack w)
          r.recorder :=
        { h.shows with held := rfl }
      have htracks := hheld.leaves hcomes
      rw [h.journal_eq] at htracks
      rw [if_neg hopen, List.append_nil]
      exact { htracks with closes_eq := htracks.closes_eq.trans h.closes_eq }

/-- With one more item in the unit, the coordinator shows a machine with one more item. -/
theorem Shows.counted (h : Shows l now m c recorder)
    (hroom : m.items.length < l.policy.maxItems.toNat) {d : Coordinator}
    (hphase : d.phase = c.phase) (hlatched : d.latched = c.latched) (hunit : d.hasUnit = c.hasUnit)
    (hpolicy : d.policy = c.policy) (htimer : d.timer = c.timer)
    (hslot : d.slot = c.slot.tryOpen.2) (x : α) :
    Shows l now { m with items := m.items ++ [x] } d.counted
      (recorder.carryOut (.process x)).2 where
  phase := hphase.trans h.phase
  latched := hlatched.trans h.latched
  hasUnit := hunit.trans h.hasUnit
  policy := hpolicy.trans h.policy
  clock := (congrArg Timer.now htimer).trans h.clock
  isOpen := by
    change d.slot.isOpen = _
    rw [hslot]
    simp [Slot.tryOpen]
  count := by
    have hlt := l.policy.maxItems.toNat_lt
    have hcount := h.count
    change (d.slot.items + 1).toNat = _
    rw [hslot, UInt64.toNat_add]
    change (c.slot.items.toNat + 1) % 2 ^ 64 = _
    rw [Nat.mod_eq_of_lt (by omega), List.length_append, hcount]
    rfl
  held := (congrArg Slot.held hslot).trans h.held
  lastClose := by
    change d.slot.lastClose.toInt = _
    rw [hslot]
    exact h.lastClose
  willing := h.willing.carryOut _
  copies := h.copies
  pending := congrArg (· ++ [x]) h.pending

/-- The bundle that an item fills is closed. -/
theorem Shows.accepted {x : α} (h : Shows l now m c.counted recorder)
    (hroom : m.items.length ≤ l.policy.maxItems.toNat)
    (hcomes : r.ComesBy (.submit x) (c.accepted 0 (.submit x)) recorder) :
    Tracks l now (m.flushIfFull l.policy.maxItems.toNat now.toInt).2 (r.attend (.submit x))
      (recorder.journal ++ (m.flushIfFull l.policy.maxItems.toNat now.toInt).1)
      (c.tally.closes.bumpAll (m.flushedIfFull l.policy.maxItems.toNat)) := by
  have haccepted : (c.accepted 0 (.submit x) : Coordinator × Stage α α) =
      if c.policy.maxItems ≤ c.counted.slot.items then
        c.counted.beginClose 0 (.submit x) .itemCount
      else c.counted.leave .done := rfl
  have hfull : c.policy.maxItems ≤ c.counted.slot.items ↔
      m.items.length = l.policy.maxItems.toNat := by
    have hpolicy : c.policy = l.policy := h.policy
    rw [UInt64.le_iff_toNat_le, hpolicy, h.count]
    omega
  simp only [hfull] at haccepted
  rw [haccepted] at hcomes
  unfold Machine.flushIfFull Machine.flushedIfFull
  split at hcomes
  case isTrue hlength =>
    obtain ⟨d, recorder', closed, hends, hshows, hjournal, hcloses⟩ := h.flush 0 hcomes (by simp)
    have htracks := hshows.answers hends (by simp) (by simp)
    rw [hjournal, hcloses] at htracks
    rw [if_pos hlength, if_pos hlength]
    exact htracks
  case isFalse hlength =>
    rw [if_neg hlength, if_neg hlength, List.append_nil]
    exact h.leaves hcomes

/-- The unit takes the item of a call that has an open bundle to put it in. -/
theorem Shows.processes (h : Shows l now m c recorder)
    (hroom : m.items.length < l.policy.maxItems.toNat) {d : Coordinator} {x : α}
    (hcomes : r.ComesBy (.submit x) (d, .processing x) recorder) (hphase : d.phase = c.phase)
    (hlatched : d.latched = c.latched) (hunit : d.hasUnit = c.hasUnit)
    (hpolicy : d.policy = c.policy) (htimer : d.timer = c.timer)
    (hslot : d.slot = c.slot.tryOpen.2) :
    let filled : Machine α := { m with items := m.items ++ [x] }
    Tracks l now (filled.flushIfFull l.policy.maxItems.toNat now.toInt).2 (r.attend (.submit x))
      (recorder.journal ++
        .processed x :: (filled.flushIfFull l.policy.maxItems.toNat now.toInt).1)
      (d.tally.closes.bumpAll (filled.flushedIfFull l.policy.maxItems.toNat)) := by
  intro filled
  have hlength : filled.items.length ≤ l.policy.maxItems.toNat := by
    change (m.items ++ [x]).length ≤ _
    rw [List.length_append, List.length_singleton]
    omega
  have hcounted := h.counted hroom hphase hlatched hunit hpolicy htimer hslot x
  have htracks := hcounted.accepted hlength
    (hcomes.resume 0 (.process x) (by simp) h.willing rfl)
  rw [← List.singleton_append, ← List.append_assoc]
  exact htracks

theorem Tracks.submit (h : Tracks l now m r journal closes)
    (hroom : m.items.length < l.policy.maxItems.toNat) (x : α) :
    Tracks l now (m.step l.policy now.toInt (.submit x)).2 (r.attend (.submit x))
      (journal ++ (m.step l.policy now.toInt (.submit x)).1)
      (closes.bumpAll (m.triggers l.policy now.toInt (.submit x))) := by
  have hrunning := h.shows.running_eq "submit"
  have hcomes : r.ComesBy (.submit x) (r.world.coordinator.enter 0 (.submit x)) r.recorder :=
    comesBy_enter 0 (by rw [← h.lock]; rfl) (by simp) (by simp)
      (.inr (by simp [Coordinator.early, hrunning]))
  have henter : (r.world.coordinator.enter 0 (.submit x) : Coordinator × Stage α α) =
      if m.items.isEmpty then
        ({ r.world.coordinator with slot := r.world.coordinator.slot.tryOpen.2 }, .starting x)
      else (r.world.coordinator, .processing x) := by
    simp only [Coordinator.enter, hrunning, h.shows.hasUnit, h.shows.isOpen]
    cases m.items.isEmpty <;> rfl
  have hstep : m.step l.policy now.toInt (.submit x) =
      m.take l.policy.maxItems.toNat now.toInt x := rfl
  rw [hstep]
  unfold Machine.take
  dsimp only
  rw [henter] at hcomes
  split at hcomes
  case isTrue hempty =>
    have hstarted : r.ComesBy (.submit x)
        ((({ r.world.coordinator with
            slot := r.world.coordinator.slot.tryOpen.2
            tally := r.world.coordinator.tally.bundleStarted } : Coordinator).note
          .bundleStarted), .processing x) (r.recorder.note .started) :=
      hcomes.resume 0 .startBundle (by simp) h.shows.willing rfl
    have htracks := (h.shows.note .started).processes hroom hstarted rfl rfl rfl rfl rfl rfl
    rw [if_pos hempty, ← List.append_assoc, ← h.journal_eq, ← h.closes_eq]
    exact htracks
  case isFalse hopen =>
    have hslot : r.world.coordinator.slot = r.world.coordinator.slot.tryOpen.2 := by
      have hisOpen : r.world.coordinator.slot.isOpen = true := by simp [h.shows.isOpen, hopen]
      unfold Slot.tryOpen
      rw [← hisOpen]
    have htracks := h.shows.processes hroom hcomes rfl rfl rfl rfl rfl hslot
    rw [if_neg hopen, List.nil_append, ← h.journal_eq, ← h.closes_eq]
    exact htracks

/-! ### All inputs -/

/-- Lets an input happen: a call is made and goes on to its end, or the clock is set. -/
def feed (r : Rig α) : Input α → Rig α
  | .submit x => r.attend (.submit x)
  | .watermark w => r.attend (.watermark w)
  | .barrier id => r.attend (.barrier id)
  | .endInput => r.attend .endInput
  | .finish trigger => r.attend (.finish trigger)
  | .tick => r.attend .tick
  | .clock now => r.step (.clock now)

/-- A coordinator with these limits on which only a start has been called. -/
def launched (id : String) (l : Limits) (timer : Timer) : Rig α :=
  (created id l.check timer []).attend .start

/-- The start of a coordinator is the machine's first state. -/
theorem tracks_launched (id : String) {timer : Timer} {index : Nat}
    (hstart : (timer.schedule l.policy.checkPeriod.toMillis).1 = .ok index) :
    Tracks l timer.now ⟨[], none, timer.now.toInt⟩ (launched id l timer : Rig α) [.opened] {} := by
  have hcomes : (created id l.check timer [] : Rig α).ComesBy .start
      ((Coordinator.create id l.check timer).opened) (({} : Recorder α).note .opened) :=
    (comesBy_enter (c := Coordinator.create id l.check timer) 0 rfl (by simp) (by simp)
      (.inr rfl)).resume 0 .openUnit (by simp) ⟨rfl, rfl⟩ rfl
  obtain ⟨timer', notices, hnow, hopened⟩ := Coordinator.opened_of_schedule (α := α) (β := α)
    (c := Coordinator.create id l.check timer) hstart
  rw [hopened] at hcomes
  refine Shows.leaves ?_ hcomes
  exact ⟨rfl, rfl, rfl, rfl, hnow, rfl, rfl, rfl, rfl, ⟨rfl, rfl⟩, rfl, rfl⟩

/-- The limits leave room for an item at any time. -/
theorem Tracks.feed (h : Tracks l now m r journal closes)
    (hroom : m.items.length < l.policy.maxItems.toNat) (input : Input α)
    (hinput : ∀ t, input ≠ .clock t) :
    Tracks l now (m.step l.policy now.toInt input).2 (r.feed input)
      (journal ++ (m.step l.policy now.toInt input).1)
      (closes.bumpAll (m.triggers l.policy now.toInt input)) := by
  have hhealthy : r.world.coordinator.healthy = .ok () := by
    unfold Coordinator.healthy
    rw [h.shows.latched]
  have hcomes (q : Request α) (hstop : q ≠ .stop) (hshutdown : q ≠ .shutdown)
      (hearly : r.world.coordinator.early q = none) :
      r.ComesBy q (r.world.coordinator.enter 0 q) r.recorder :=
    comesBy_enter 0 (by rw [← h.lock]; rfl) hstop hshutdown (.inr hearly)
  cases input with
  | submit x => exact h.submit hroom x
  | watermark w => exact h.watermark w
  | tick => exact h.tick
  | barrier id =>
    exact h.flush (hcomes (.barrier id) (by simp) (by simp)
      (by simp [Coordinator.early, hhealthy])) (by simp) (by simp)
  | endInput =>
    exact h.flush (hcomes .endInput (by simp) (by simp)
      (by simp [Coordinator.early, hhealthy])) (by simp) (by simp)
  | finish trigger =>
    exact h.flush (hcomes (.finish trigger) (by simp) (by simp) rfl) (by simp) (by simp)
  | clock t => exact absurd rfl (hinput t)

theorem Tracks.clock (h : Tracks l now m r journal closes) (t : Int64) :
    Tracks l t m (r.feed (.clock t)) journal closes :=
  ⟨h.lock, { h.shows with clock := rfl }, h.journal_eq, h.closes_eq⟩

theorem Tracks.foldl_feed (inputs : List (Input α)) {now : Int64} {m : Machine α} {r : Rig α}
    {journal : Journal α} {closes : Closes} (h : Tracks l now m r journal closes)
    (hroom : m.items.length < l.policy.maxItems.toNat) :
    ∃ last total, Tracks l last (m.run l.policy now.toInt inputs).2 (inputs.foldl Rig.feed r)
      (journal ++ (m.run l.policy now.toInt inputs).1) total := by
  induction inputs generalizing now m r journal closes with
  | nil => exact ⟨now, closes, by simpa [Machine.run] using h⟩
  | cons input inputs ih =>
    by_cases hclock : ∃ t, input = .clock t
    · obtain ⟨t, rfl⟩ := hclock
      exact ih (h.clock t) hroom
    · have hinput (t : Int64) : input ≠ .clock t := fun heq ↦ hclock ⟨t, heq⟩
      have hrun : m.run l.policy now.toInt (input :: inputs) =
          ((m.step l.policy now.toInt input).1 ++
              ((m.step l.policy now.toInt input).2.run l.policy now.toInt inputs).1,
            ((m.step l.policy now.toInt input).2.run l.policy now.toInt inputs).2) := by
        cases input with
        | clock t => exact absurd rfl (hinput t)
        | _ => rfl
      rw [hrun, ← List.append_assoc]
      exact ih (h.feed hroom input hinput) (Machine.length_step now.toInt hroom input)

/-- A coordinator that has been started and gets one input after the other, with collaborators that
never fail, writes the journal of the machine and shows its state, whatever the limits and the
inputs are. -/
theorem journal_eq_machine (id : String) (l : Limits) {timer : Timer} {index : Nat}
    (hstart : (timer.schedule l.policy.checkPeriod.toMillis).1 = .ok index)
    (inputs : List (Input α)) :
    let r := inputs.foldl feed (launched id l timer)
    let m := Machine.run l.policy timer.now.toInt ⟨[], none, timer.now.toInt⟩ inputs
    r.recorder.journal = .opened :: m.1 ∧
      r.world.coordinator.slot.isOpen = !m.2.items.isEmpty ∧
      r.world.coordinator.slot.items.toNat = m.2.items.length ∧
      r.world.coordinator.slot.held = m.2.hold ∧
      r.world.coordinator.slot.lastClose.toInt = m.2.lastClose := by
  obtain ⟨last, total, htracks⟩ := (tracks_launched id hstart).foldl_feed inputs l.maxItems_pos
  exact ⟨htracks.journal_eq, htracks.shows.isOpen, htracks.shows.count, htracks.shows.held,
    htracks.shows.lastClose⟩

/-- Bundles of two items: one is filled with a watermark held behind its first item, the next grows
too old. -/
theorem journal_eq_machine_pairs :
    let timer : Timer := { kind := .manual false, now := 0 }
    (timer.schedule ({ size := 2 } : Limits).policy.checkPeriod.toMillis).1 = .ok 0 ∧
      ([.submit 1, .watermark ⟨5⟩, .submit 2, .submit 3, .clock 1000, .tick].foldl feed
          (launched "pairs" { size := 2 } timer : Rig Nat)).recorder.journal =
        [.opened, .started, .processed 1, .processed 2, .finished, .emitted 1, .emitted 2,
          .forwarded ⟨5⟩, .started, .processed 3, .finished, .emitted 3] := by
  intro timer
  have hstart :
      (timer.schedule ({ size := 2 } : Limits).policy.checkPeriod.toMillis).1 = .ok 0 := by
    decide
  refine ⟨hstart, (journal_eq_machine "pairs" { size := 2 } hstart _).1.trans ?_⟩
  decide

end Rig

end Bundling
