import Mathlib.Data.List.Perm.Subperm
import Mathlib.Order.Bounds.Basic
import Bundling.Timer.Grid

/-!
The task of a periodic registration in time. Time may jump, the task runs when it gets the chance
and a callback takes as long as it likes; all that a `Pace` records is which deadlines have been
answered, when the task saw them, and when the callbacks ended. Whatever happens, the deadlines stay
on the grid of the registration and only move forward, so that there are never more callbacks than
grid points gone by. The unit of time does not matter: a finer scale only has a larger tolerance.
-/

set_option autoImplicit false
set_option relaxedAutoImplicit false

namespace Bundling

/-! ### The grid -/

/-- The next deadline is so many periods later. -/
theorem deadlineAfter_eq (tolerance period : Nat) {deadline now : Nat} (h : deadline ≤ now) :
    deadlineAfter tolerance period deadline now =
      deadline + (if now ≤ deadline + tolerance then 1
        else (now - deadline) / period + 1) * period := by
  unfold deadlineAfter
  split
  · omega
  · have hdiv := Nat.div_add_mod (now - deadline) period
    rw [Nat.add_mul, Nat.mul_comm _ period, Nat.one_mul]
    omega

/-- A start of a callback: the deadline that it answers, and when the task has seen it. -/
structure Tick where
  deadline : Nat
  seen : Nat
  deriving DecidableEq, Inhabited

/-- The task of a registration as time passes, with its callbacks so far. -/
structure Pace where
  ticker : Ticker
  now : Nat
  /-- The callbacks that have been started. -/
  ticks : List Tick := []
  /-- The moments at which callbacks have ended. -/
  ends : List Nat := []
  /-- How late a deadline may be seen without skipping grid points. -/
  tolerance : Nat := latenessTolerance
  deriving DecidableEq, Inhabited

namespace Pace

inductive Move where
  | pass (millis : Nat)
  /-- The task runs; its registration stands or does not. -/
  | wake (active : Bool)
  | endCallback

def scheduled (period moment : Nat) : Pace :=
  { ticker := .scheduled period moment, now := moment }

/-- The same on a scale of time on which the tolerance is so many units. -/
def scheduledWithin (tolerance period moment : Nat) : Pace :=
  { scheduled period moment with tolerance := tolerance }

/-- The task starts its callback. -/
def start (p : Pace) : Pace :=
  { p with
    ticker := p.ticker.startWithin p.tolerance p.now
    ticks := p.ticks ++ [⟨p.ticker.deadline, p.now⟩] }

def step (p : Pace) : Move → Pace
  | .pass millis => { p with now := p.now + millis }
  | .wake active =>
    if p.ticker.state = .waiting ∧ active = false then { p with ticker := p.ticker.stop }
    else if p.ticker.isDue p.now then p.start
    else p
  | .endCallback =>
    if p.ticker.state = .busy then
      { p with ticker := p.ticker.callbackEnded, ends := p.ends ++ [p.now] }
    else p

def run (p : Pace) (moves : List Move) : Pace := moves.foldl step p

theorem run_append (p : Pace) (moves moves' : List Move) :
    p.run (moves ++ moves') = (p.run moves).run moves' :=
  List.foldl_append

theorem tolerance_step (p : Pace) (m : Move) : (p.step m).tolerance = p.tolerance := by
  cases m with
  | pass => rfl
  | wake active =>
    unfold step
    dsimp only
    split
    · rfl
    · split <;> rfl
  | endCallback =>
    unfold step
    dsimp only
    split <;> rfl

theorem tolerance_run (p : Pace) (moves : List Move) : (p.run moves).tolerance = p.tolerance := by
  induction moves generalizing p with
  | nil => rfl
  | cons m moves ih => exact (ih (p.step m)).trans (p.tolerance_step m)

/-- The deadlines answered so far, and the next one. -/
def deadlines (p : Pace) : List Nat := p.ticks.map Tick.deadline ++ [p.ticker.deadline]

theorem deadlines_start (p : Pace) :
    p.start.deadlines = p.deadlines ++
      [deadlineAfter p.tolerance p.ticker.period p.ticker.deadline p.now] := by
  simp [deadlines, start, Ticker.startWithin]

/-! ### What every move keeps -/

/-- How the deadlines, the callbacks and the present moment lie to each other. -/
structure Regular (period scheduled : Nat) (p : Pace) : Prop where
  keepsPeriod : p.ticker.period = period
  grid : ∀ d ∈ p.deadlines, ∃ m, 1 ≤ m ∧ d = scheduled + m * period
  increasing : p.deadlines.Pairwise (· < ·)
  follows : p.deadlines.tail =
    p.ticks.map fun t ↦ deadlineAfter p.tolerance period t.deadline t.seen
  due : ∀ t ∈ p.ticks, t.deadline ≤ t.seen
  /-- Only the last callback may be under way. -/
  ended : p.ends.length + (if p.ticker.state = .busy then 1 else 0) = p.ticks.length
  past : ∀ moment ∈ p.ends, moment ≤ p.now
  inTurn : ∀ k t, p.ticks[k + 1]? = some t → ∃ moment, p.ends[k]? = some moment ∧ moment ≤ t.seen

variable {period scheduled : Nat} {p : Pace}

theorem regular_scheduledWithin (tolerance period scheduled : Nat) :
    (Pace.scheduledWithin tolerance period scheduled).Regular period scheduled where
  keepsPeriod := rfl
  grid := fun d hd ↦ ⟨1, Nat.le_refl 1, by
    simpa [deadlines, scheduledWithin, Pace.scheduled, Ticker.scheduled] using hd⟩
  increasing := List.pairwise_singleton _ _
  follows := rfl
  due := by simp [scheduledWithin, Pace.scheduled]
  ended := rfl
  past := by simp [scheduledWithin, Pace.scheduled]
  inTurn := by simp [scheduledWithin, Pace.scheduled]

theorem regular_scheduled (period scheduled : Nat) :
    (Pace.scheduled period scheduled).Regular period scheduled :=
  regular_scheduledWithin latenessTolerance period scheduled

/-- No deadline is later than the next one. -/
theorem Regular.le_deadline (h : p.Regular period scheduled) {d : Nat} (hd : d ∈ p.deadlines) :
    d ≤ p.ticker.deadline := by
  rcases List.mem_append.mp hd with hd | hd
  · exact Nat.le_of_lt ((List.pairwise_append.mp h.increasing).2.2 d hd _
      (List.mem_singleton_self _))
  · exact Nat.le_of_eq (List.mem_singleton.mp hd)

/-- While the task waits, all its callbacks have ended. -/
theorem Regular.ended_of_waiting (h : p.Regular period scheduled)
    (hwaiting : p.ticker.state = .waiting) : p.ends.length = p.ticks.length := by
  have hended := h.ended
  rwa [if_neg (by simp [hwaiting]), Nat.add_zero] at hended

theorem Regular.start (h : p.Regular period scheduled) (hperiod : 0 < period)
    (hdue : p.ticker.isDue p.now = true) : p.start.Regular period scheduled := by
  obtain ⟨⟨hwaiting, hle⟩, -⟩ :
      (p.ticker.state = .waiting ∧ p.ticker.deadline ≤ p.now) ∧ _ := by
    simpa [Ticker.isDue] using hdue
  have hended := h.ended_of_waiting hwaiting
  have hdeadlines := p.deadlines_start
  rw [h.keepsPeriod] at hdeadlines
  refine ⟨h.keepsPeriod, ?grid, ?increasing, ?follows, ?due, ?ended, h.past, ?inTurn⟩
  case grid =>
    rw [hdeadlines]
    intro d hd
    rcases List.mem_append.mp hd with hd | hd
    · exact h.grid d hd
    · obtain ⟨m, hm, hdeadline⟩ := h.grid p.ticker.deadline (by simp [deadlines])
      rw [List.mem_singleton.mp hd, deadlineAfter_eq p.tolerance period hle, hdeadline,
        Nat.add_assoc, ← Nat.add_mul]
      exact ⟨_, Nat.le_add_right_of_le hm, rfl⟩
  case increasing =>
    rw [hdeadlines, List.pairwise_append]
    refine ⟨h.increasing, List.pairwise_singleton _ _, fun d hd next hnext ↦ ?_⟩
    rw [List.mem_singleton.mp hnext]
    exact Nat.lt_of_le_of_lt (h.le_deadline hd) (lt_deadlineAfter hperiod _ _ _)
  case follows =>
    rw [hdeadlines, List.tail_append_of_ne_nil (by simp [deadlines]), h.follows]
    simp [Pace.start]
  case due =>
    intro t ht
    rcases List.mem_append.mp ht with ht | ht
    · exact h.due t ht
    · rw [List.mem_singleton.mp ht]
      exact hle
  case ended => simp [Pace.start, Ticker.startWithin, hended]
  case inTurn =>
    intro k t ht
    change (p.ticks ++ [_])[k + 1]? = some t at ht
    rw [List.getElem?_append] at ht
    split at ht
    case isTrue => exact h.inTurn k t ht
    case isFalse hge =>
      -- the callback before has ended
      obtain ⟨hlt, ht⟩ := List.getElem?_eq_some_iff.mp ht
      rw [List.length_singleton] at hlt
      rw [List.getElem_singleton] at ht
      have hk : k < p.ends.length := by omega
      refine ⟨p.ends[k], List.getElem?_eq_getElem hk, ?_⟩
      rw [← ht]
      exact h.past _ (List.getElem_mem hk)

theorem Regular.step (h : p.Regular period scheduled) (hperiod : 0 < period) (m : Move) :
    (p.step m).Regular period scheduled := by
  cases m with
  | pass millis =>
    exact ⟨h.keepsPeriod, h.grid, h.increasing, h.follows, h.due, h.ended,
      fun moment hmoment ↦ Nat.le_add_right_of_le (h.past moment hmoment), h.inTurn⟩
  | wake active =>
    unfold Pace.step
    dsimp only
    split
    case isTrue hstop =>
      exact ⟨h.keepsPeriod, h.grid, h.increasing, h.follows, h.due, h.ended_of_waiting hstop.1,
        h.past, h.inTurn⟩
    case isFalse =>
      split
      case isTrue hdue => exact h.start hperiod hdue
      case isFalse => exact h
  | endCallback =>
    unfold Pace.step
    dsimp only
    split
    case isTrue hbusy =>
      have hended := h.ended
      rw [if_pos hbusy] at hended
      refine ⟨h.keepsPeriod, h.grid, h.increasing, h.follows, h.due, ?_, ?_, ?_⟩
      · simpa [Ticker.callbackEnded] using hended
      · intro moment hmoment
        rcases List.mem_append.mp hmoment with hmoment | hmoment
        · exact h.past moment hmoment
        · exact Nat.le_of_eq (List.mem_singleton.mp hmoment)
      · intro k t ht
        obtain ⟨moment, hmoment, hle⟩ := h.inTurn k t ht
        have hk := (List.getElem?_eq_some_iff.mp hmoment).1
        exact ⟨moment, (List.getElem?_append_left hk).trans hmoment, hle⟩
    case isFalse => exact h

theorem Regular.run (h : p.Regular period scheduled) (hperiod : 0 < period) (moves : List Move) :
    (p.run moves).Regular period scheduled := by
  induction moves generalizing p with
  | nil => exact h
  | cons m moves ih => exact ih (h.step hperiod m)

/-! ### Counting -/

/-- There are no more moments on a stretch of the grid than it has points. -/
theorem length_le_of_grid {l : List Nat} {low high : Nat} (hincreasing : l.Pairwise (· < ·))
    (hgrid : ∀ d ∈ l, ∃ m, low ≤ m ∧ m ≤ high ∧ d = scheduled + m * period) :
    l.length ≤ high + 1 - low := by
  have hnodup : l.Nodup := hincreasing.imp Nat.ne_of_lt
  have hsubset : l ⊆ (List.range' low (high + 1 - low)).map (scheduled + · * period) := by
    intro d hd
    obtain ⟨m, hlow, hhigh, rfl⟩ := hgrid d hd
    exact List.mem_map.mpr ⟨m, List.mem_range'_1.mpr (by omega), rfl⟩
  simpa using (List.subperm_of_subset hnodup hsubset).length_le

theorem Regular.grid_of_mem (h : p.Regular period scheduled) {t : Tick} (ht : t ∈ p.ticks) :
    ∃ m, 1 ≤ m ∧ t.deadline = scheduled + m * period :=
  h.grid t.deadline (List.mem_append_left _ (List.mem_map_of_mem ht))

theorem Regular.increasing_filter (h : p.Regular period scheduled) (f : Tick → Bool) :
    ((p.ticks.filter f).map Tick.deadline).Pairwise (· < ·) :=
  (List.pairwise_append.mp h.increasing).1.sublist (List.filter_sublist.map _)

theorem Regular.next_eq (h : p.Regular period scheduled) {k : Nat} {t : Tick} {next : Nat}
    (ht : p.ticks[k]? = some t) (hnext : p.deadlines[k + 1]? = some next) :
    next = deadlineAfter p.tolerance period t.deadline t.seen := by
  rw [← List.getElem?_tail, h.follows, List.getElem?_map, ht] at hnext
  exact (Option.some.inj hnext).symm

end Pace

end Bundling
