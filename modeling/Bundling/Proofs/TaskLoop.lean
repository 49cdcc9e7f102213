import Bundling.Timer.Grid

/-!
The task of a registration turn by turn. A task that waits is ready for its next tick and for the
notice that its registration has been cancelled, and if both are there it may take either first.
Cancelling clears the flag of the registration and leaves the notice, which a task in its callback
finds later. In whatever order a task takes things, it ends up where `Worker.settle` puts it, and
after a cancellation it only ends: two turns are enough, unless its callback is still running.
-/

set_option autoImplicit false
set_option relaxedAutoImplicit false

namespace Bundling

namespace Worker

variable {w : Worker} {active : Bool} {now : Nat}

/-! ### Equations for a task that runs until it waits -/

theorem settle_of_over (h : w.ticker.state = .over) : w.settle active now = w := by
  rw [settle]
  split <;> simp_all

theorem settle_of_running (h : w.ticker.state = .busy) (hlt : now < w.busyUntil) :
    w.settle active now = w := by
  rw [settle]
  split
  · rfl
  · exact if_neg (Nat.not_le_of_lt hlt)
  · simp_all

theorem settle_of_ended (h : w.ticker.state = .busy) (hle : w.busyUntil ≤ now) :
    w.settle active now = settle active now { w with ticker := w.ticker.callbackEnded } := by
  rw [settle]
  split <;> simp_all

theorem settle_of_gone (h : w.ticker.state = .waiting) :
    w.settle false now = { w with ticker := w.ticker.stop } := by
  rw [settle]
  split <;> simp_all

theorem settle_of_due (h : w.ticker.isDue now = true) :
    w.settle true now = (w.begin now).settle true now := by
  have hstate : w.ticker.state = .waiting := by simp_all [Ticker.isDue]
  rw [settle]
  split <;> simp_all

theorem settle_of_not_due (hstate : w.ticker.state = .waiting) (h : ¬ w.ticker.isDue now = true) :
    w.settle true now = w := by
  rw [settle]
  split <;> simp_all

/-- The worker with its task at another place. -/
def inState (w : Worker) (state : TaskState) : Worker :=
  { w with ticker := { w.ticker with state := state } }

/-- Where a task stands that has been told to end: nothing keeps it but a callback that is still
running. -/
def leaving (w : Worker) (now : Nat) : TaskState :=
  if w.ticker.state = .busy ∧ now < w.busyUntil then .busy else .over

/-- What a worker may have become since its registration was cancelled: it has started no callback,
and one that is still running has not been touched. -/
structure Ends (w w' : Worker) (now : Nat) : Prop where
  calls : w'.calls = w.calls
  running : w.leaving now = .busy → w' = w

/-- A task whose registration is gone ends, unless its callback is still running. -/
theorem settle_false (w : Worker) (now : Nat) : w.settle false now = w.inState (w.leaving now) := by
  cases hstate : w.ticker.state with
  | waiting =>
    rw [settle_of_gone hstate, leaving, if_neg (by simp [hstate])]
    rfl
  | busy =>
    by_cases hlt : now < w.busyUntil
    · rw [settle_of_running hstate hlt, leaving, if_pos ⟨hstate, hlt⟩, inState, ← hstate]
    · rw [settle_of_ended hstate (Nat.le_of_not_lt hlt), settle_of_gone rfl, leaving,
        if_neg (fun h ↦ hlt h.2)]
      rfl
  | _ => rw [settle_of_over hstate, leaving, if_neg (by simp [hstate]), inState, ← hstate]

end Worker

/-- A task with what it shares with the handle of its registration. -/
structure Loop where
  worker : Worker
  now : Nat
  /-- The flag of the registration. -/
  active : Bool := true
  /-- A notice of the cancellation that the task has not taken yet. -/
  notice : Bool := false
  deriving DecidableEq

namespace Loop

inductive Move where
  | pass (millis : Nat)
  | cancel
  /-- The task takes what is ready, the tick or the notice first if both are. -/
  | turn (tickFirst : Bool)
  deriving DecidableEq

/-- The task as it runs for the first time. -/
def scheduled (periodMillis busyMillis now : Nat) : Loop :=
  { worker := .scheduled periodMillis busyMillis now, now := now }

/-- Clears the flag and leaves a notice, the first time. -/
def cancel (l : Loop) : Loop :=
  if l.active then { l with active := false, notice := true } else l

/-- The task leaves its loop and clears the flag. -/
def finish (l : Loop) : Loop :=
  { l with worker := { l.worker with ticker := l.worker.ticker.stop }, active := false }

/-- One turn of the task: the end of its callback, or what is ready while it waits. A tick starts
the callback only if the flag still stands. -/
def turn (l : Loop) (tickFirst : Bool) : Loop :=
  match l.worker.ticker.state with
  | .over => l
  | .busy =>
    if l.worker.busyUntil ≤ l.now then
      { l with worker := { l.worker with ticker := l.worker.ticker.callbackEnded } }
    else l
  | .waiting =>
    if l.worker.ticker.isDue l.now && (tickFirst || !l.notice) then
      if l.active then { l with worker := l.worker.begin l.now } else l.finish
    else if l.notice then { l.finish with notice := false }
    else l

def step (l : Loop) : Move → Loop
  | .pass millis => { l with now := l.now + millis }
  | .cancel => l.cancel
  | .turn tickFirst => l.turn tickFirst

def run (l : Loop) (moves : List Move) : Loop := moves.foldl step l

/-- So many turns at one moment. -/
def turns (l : Loop) (choices : List Bool) : Loop := choices.foldl turn l

theorem run_append (l : Loop) (moves moves' : List Move) :
    l.run (moves ++ moves') = (l.run moves).run moves' :=
  List.foldl_append

theorem run_turns (l : Loop) (choices : List Bool) :
    l.run (choices.map Move.turn) = l.turns choices :=
  List.foldl_map

/-- The task waits for time to pass: there is nothing that it could do now. -/
def Rests (l : Loop) : Prop :=
  match l.worker.ticker.state with
  | .over => True
  | .busy => l.now < l.worker.busyUntil
  | .waiting => l.worker.ticker.isDue l.now = false ∧ l.notice = false

/-- Flag, notice and place of the task: as long as the task is not over, there is a notice exactly
if the flag has been cleared. -/
structure Sound (l : Loop) : Prop where
  ended : l.worker.ticker.state = .over → l.active = false
  notice : l.worker.ticker.state ≠ .over → l.notice = !l.active

variable {l : Loop}

/-! ### Turns -/

/-- What a turn comes to. -/
theorem turn_cases (l : Loop) (tickFirst : Bool) :
    (l.Rests ∧ l.turn tickFirst = l) ∨
    (l.worker.ticker.state = .busy ∧ l.worker.busyUntil ≤ l.now ∧
      l.turn tickFirst =
        { l with worker := { l.worker with ticker := l.worker.ticker.callbackEnded } }) ∨
    (l.worker.ticker.isDue l.now = true ∧ l.active = true ∧
      l.turn tickFirst = { l with worker := l.worker.begin l.now }) ∨
    (l.worker.ticker.state = .waiting ∧ (l.active = false ∨ l.notice = true) ∧
      ∃ notice, l.turn tickFirst = { l.finish with notice := notice }) := by
  unfold turn Rests
  cases hstate : l.worker.ticker.state with
  | busy =>
    by_cases hended : l.worker.busyUntil ≤ l.now
    · exact .inr (.inl ⟨rfl, hended, if_pos hended⟩)
    · exact .inl ⟨Nat.lt_of_not_le hended, if_neg hended⟩
  | waiting =>
    dsimp only
    split
    case isTrue htick =>
      have hdue : l.worker.ticker.isDue l.now = true := (Bool.and_eq_true_iff.mp htick).1
      split
      case isTrue hactive => exact .inr (.inr (.inl ⟨hdue, hactive, rfl⟩))
      case isFalse hgone =>
        exact .inr (.inr (.inr ⟨rfl, .inl (Bool.eq_false_iff.mpr hgone), l.notice, rfl⟩))
    case isFalse htick =>
      split
      case isTrue hnotice => exact .inr (.inr (.inr ⟨rfl, .inr hnotice, false, rfl⟩))
      case isFalse hnone =>
        have hnotice : l.notice = false := Bool.eq_false_iff.mpr hnone
        rw [hnotice, Bool.not_false, Bool.or_true, Bool.and_true] at htick
        exact .inl ⟨⟨Bool.eq_false_iff.mpr htick, hnotice⟩, rfl⟩
  | _ => exact .inl ⟨trivial, rfl⟩

theorem turn_of_rests (h : l.Rests) (tickFirst : Bool) : l.turn tickFirst = l := by
  unfold Rests at h
  unfold turn
  cases hstate : l.worker.ticker.state with
  | busy =>
    rw [hstate] at h
    exact if_neg (Nat.not_le_of_lt h)
  | waiting =>
    rw [hstate] at h
    simp [h.1, h.2]
  | _ => rfl

theorem now_turn (l : Loop) (tickFirst : Bool) : (l.turn tickFirst).now = l.now := by
  rcases l.turn_cases tickFirst with ⟨-, h⟩ | ⟨-, -, h⟩ | ⟨-, -, h⟩ | ⟨-, -, notice, h⟩ <;> rw [h]
  rfl

theorem now_turns (l : Loop) (choices : List Bool) : (l.turns choices).now = l.now := by
  induction choices generalizing l with
  | nil => rfl
  | cons tickFirst choices ih => exact (ih (l.turn tickFirst)).trans (now_turn l tickFirst)

/-! ### Flag and notice -/

theorem worker_cancel (l : Loop) : l.cancel.worker = l.worker := by
  unfold cancel
  split <;> rfl

theorem now_cancel (l : Loop) : l.cancel.now = l.now := by
  unfold cancel
  split <;> rfl

theorem active_cancel (l : Loop) : l.cancel.active = false := by
  unfold cancel
  split
  · rfl
  · exact Bool.eq_false_iff.mpr ‹_›

theorem sound_scheduled (periodMillis busyMillis now : Nat) :
    (scheduled periodMillis busyMillis now).Sound :=
  ⟨fun h ↦ (by cases h), fun _ ↦ rfl⟩

/-- A task leaves its loop only if the flag has been cleared. -/
theorem Sound.inactive (h : l.Sound) (hstate : l.worker.ticker.state = .waiting)
    (hends : l.active = false ∨ l.notice = true) : l.active = false := by
  rcases hends with hactive | hnotice
  · exact hactive
  · have hflag := h.notice (by simp [hstate])
    rw [hnotice] at hflag
    simpa using hflag.symm

theorem Sound.turn (h : l.Sound) (tickFirst : Bool) : (l.turn tickFirst).Sound := by
  rcases l.turn_cases tickFirst with ⟨-, heq⟩ | ⟨hbusy, -, heq⟩ | ⟨hdue, -, heq⟩ |
    ⟨-, -, notice, heq⟩
  · rwa [heq]
  · rw [heq]
    exact ⟨fun hover ↦ (by cases hover), fun _ ↦ h.notice (by simp [hbusy])⟩
  · have hwaiting : l.worker.ticker.state = .waiting := by simp_all [Ticker.isDue]
    rw [heq]
    exact ⟨fun hover ↦ (by cases hover), fun _ ↦ h.notice (by simp [hwaiting])⟩
  · rw [heq]
    exact ⟨fun _ ↦ rfl, fun hnot ↦ absurd rfl hnot⟩

theorem Sound.cancel (h : l.Sound) : l.cancel.Sound := by
  unfold Loop.cancel
  split
  · exact ⟨fun _ ↦ rfl, fun _ ↦ rfl⟩
  · exact h

theorem Sound.step (h : l.Sound) (m : Move) : (l.step m).Sound := by
  cases m with
  | pass millis => exact ⟨h.ended, h.notice⟩
  | cancel => exact h.cancel
  | turn tickFirst => exact h.turn tickFirst

theorem Sound.run (h : l.Sound) (moves : List Move) : (l.run moves).Sound := by
  induction moves generalizing l with
  | nil => exact h
  | cons m moves ih => exact ih (h.step m)

theorem Sound.active_turn (h : l.Sound) (tickFirst : Bool) :
    (l.turn tickFirst).active = l.active := by
  rcases l.turn_cases tickFirst with ⟨-, heq⟩ | ⟨-, -, heq⟩ | ⟨-, -, heq⟩ |
    ⟨hstate, hends, notice, heq⟩ <;> rw [heq]
  exact (h.inactive hstate hends).symm

theorem Sound.active_turns (h : l.Sound) (choices : List Bool) :
    (l.turns choices).active = l.active := by
  induction choices generalizing l with
  | nil => rfl
  | cons tickFirst choices ih =>
    exact (ih (h.turn tickFirst)).trans (h.active_turn tickFirst)

/-! ### The order of turns does not matter -/

/-- A turn is a step on the way to where the task ends up. -/
theorem Sound.settle_turn (h : l.Sound) (tickFirst : Bool) :
    (l.turn tickFirst).worker.settle l.active l.now = l.worker.settle l.active l.now := by
  rcases l.turn_cases tickFirst with ⟨-, heq⟩ | ⟨hbusy, hended, heq⟩ | ⟨hdue, hactive, heq⟩ |
    ⟨hstate, hends, notice, heq⟩ <;> rw [heq]
  · exact (Worker.settle_of_ended hbusy hended).symm
  · rw [hactive]
    exact (Worker.settle_of_due hdue).symm
  · rw [h.inactive hstate hends, Worker.settle_of_gone hstate]
    exact Worker.settle_of_over rfl

theorem Sound.settle_of_rests (h : l.Sound) (hrests : l.Rests) :
    l.worker.settle l.active l.now = l.worker := by
  unfold Rests at hrests
  cases hstate : l.worker.ticker.state with
  | busy =>
    rw [hstate] at hrests
    exact Worker.settle_of_running hstate hrests
  | waiting =>
    rw [hstate] at hrests
    have hactive : l.active = true := by
      have hflag := h.notice (by simp [hstate])
      rw [hrests.2] at hflag
      simpa using hflag.symm
    rw [hactive]
    exact Worker.settle_of_not_due hstate (by simp [hrests.1])
  | _ => exact Worker.settle_of_over hstate

/-- However the task takes its turns, once it rests it is where settling puts it. -/
theorem Sound.worker_turns (h : l.Sound) {choices : List Bool} (hrests : (l.turns choices).Rests) :
    (l.turns choices).worker = l.worker.settle l.active l.now := by
  induction choices generalizing l with
  | nil => exact (h.settle_of_rests hrests).symm
  | cons tickFirst choices ih =>
    have hrest := ih (h.turn tickFirst) hrests
    rw [h.active_turn, now_turn, h.settle_turn] at hrest
    exact hrest

/-- How many turns the task may still take at this moment. -/
def effort (l : Loop) : Nat :=
  2 * (l.now + 1 - l.worker.ticker.deadline) +
    match l.worker.ticker.state with
    | .over => 0
    | .waiting => 1
    | .busy => 2

theorem effort_turn_lt (h : ¬ l.Rests) (tickFirst : Bool) :
    (l.turn tickFirst).effort < l.effort := by
  rcases l.turn_cases tickFirst with ⟨hrests, -⟩ | ⟨hbusy, -, heq⟩ | ⟨hdue, -, heq⟩ |
    ⟨hstate, -, notice, heq⟩
  · exact absurd hrests h
  · rw [heq]
    simp [effort, Ticker.callbackEnded, hbusy]
  · rw [heq]
    simp only [Ticker.isDue, Bool.and_eq_true, decide_eq_true_eq, beq_iff_eq] at hdue
    have hlt := lt_nextDeadline hdue.2 l.worker.ticker.deadline l.now
    simp only [effort, Worker.begin, Ticker.start_deadline, Ticker.start_state, hdue.1.1]
    omega
  · rw [heq]
    simp [effort, finish, Ticker.stop, hstate]

theorem turns_of_rests (h : l.Rests) (choices : List Bool) : l.turns choices = l := by
  induction choices with
  | nil => rfl
  | cons tickFirst choices ih =>
    change (l.turn tickFirst).turns choices = l
    rwa [turn_of_rests h]

/-- A task that gets turns enough comes to rest. -/
theorem rests_turns {choices : List Bool} (h : l.effort ≤ choices.length) :
    (l.turns choices).Rests := by
  induction choices generalizing l with
  | nil =>
    by_cases hrests : l.Rests
    · exact hrests
    · have hlt := effort_turn_lt hrests true
      rw [List.length_nil] at h
      omega
  | cons tickFirst choices ih =>
    by_cases hrests : l.Rests
    · rwa [turns_of_rests hrests]
    · have hlt := effort_turn_lt hrests tickFirst
      rw [List.length_cons] at h
      exact ih (by omega)

/-! ### After a cancellation -/

/-- The task of a registration that was cancelled when its worker was `w`: it has the flag and the
place that it had then, or is on its way out, which it cannot be before its callback has ended. -/
structure Leaves (w : Worker) (l : Loop) : Prop where
  sound : l.Sound
  inactive : l.active = false
  worker : l.worker = w ∨
    ∃ state, state ≠ .busy ∧ l.worker = w.inState state ∧ w.leaving l.now = .over

variable {w : Worker}

theorem Leaves.ends (h : Leaves w l) : w.Ends l.worker l.now := by
  rcases h.worker with heq | ⟨state, -, heq, hover⟩
  · exact ⟨by rw [heq], fun _ ↦ heq⟩
  · refine ⟨by rw [heq]; rfl, fun hbusy ↦ ?_⟩
    rw [hover] at hbusy
    cases hbusy

theorem Leaves.leaving_eq (h : Leaves w l) : l.worker.leaving l.now = w.leaving l.now := by
  rcases h.worker with heq | ⟨state, hstate, heq, hover⟩
  · rw [heq]
  · rw [hover, heq]
    exact if_neg fun hbusy ↦ hstate hbusy.1

/-- Cancelled at any moment, the task leaves. -/
theorem leaves_cancel (h : l.Sound) : Leaves l.worker l.cancel :=
  ⟨h.cancel, active_cancel l, .inl (worker_cancel l)⟩

theorem Leaves.pass (h : Leaves w l) (millis : Nat) :
    Leaves w { l with now := l.now + millis } := by
  refine ⟨⟨h.sound.ended, h.sound.notice⟩, h.inactive, h.worker.imp_right ?_⟩
  rintro ⟨state, hstate, heq, hover⟩
  refine ⟨state, hstate, heq, if_neg fun hbusy ↦ ?_⟩
  rw [Worker.leaving, if_pos ⟨hbusy.1, Nat.lt_of_le_of_lt (Nat.le_add_right _ _) hbusy.2⟩] at hover
  cases hover

theorem Leaves.turn (h : Leaves w l) (tickFirst : Bool) : Leaves w (l.turn tickFirst) := by
  refine ⟨h.sound.turn tickFirst, (h.sound.active_turn tickFirst).trans h.inactive, ?_⟩
  rw [now_turn]
  rcases l.turn_cases tickFirst with ⟨-, heq⟩ | ⟨hbusy, hended, heq⟩ | ⟨-, hactive, -⟩ |
    ⟨hwaiting, -, notice, heq⟩
  · rw [heq]
    exact h.worker
  · -- only the callback that was running can end
    rw [heq]
    rcases h.worker with hw | ⟨state, hstate, hw, -⟩
    · rw [hw] at hended
      refine .inr ⟨.waiting, by simp, by rw [hw]; rfl, if_neg fun hrunning ↦ ?_⟩
      exact Nat.not_lt_of_le hended hrunning.2
    · rw [hw] at hbusy
      exact absurd hbusy hstate
  · rw [h.inactive] at hactive
    cases hactive
  · rw [heq]
    rcases h.worker with hw | ⟨state, hstate, hw, hover⟩
    · rw [hw] at hwaiting
      refine .inr ⟨.over, by simp, by rw [finish, hw]; rfl, if_neg fun hbusy ↦ ?_⟩
      rw [hwaiting] at hbusy
      cases hbusy.1
    · exact .inr ⟨.over, by simp, by rw [finish, hw]; rfl, hover⟩

theorem Leaves.step (h : Leaves w l) (m : Move) : Leaves w (l.step m) := by
  cases m with
  | pass millis => exact h.pass millis
  | cancel =>
    have hsame : l.step .cancel = l := if_neg (by simp [h.inactive])
    rwa [hsame]
  | turn tickFirst => exact h.turn tickFirst

theorem Leaves.run (h : Leaves w l) (moves : List Move) : Leaves w (l.run moves) := by
  induction moves generalizing l with
  | nil => exact h
  | cons m moves ih => exact ih (h.step m)

/-- Outside its callback the task needs one turn to rest. -/
theorem Leaves.rests_turn (h : Leaves w l) (hstate : l.worker.ticker.state ≠ .busy)
    (tickFirst : Bool) : (l.turn tickFirst).Rests := by
  rcases l.turn_cases tickFirst with ⟨hrests, heq⟩ | ⟨hbusy, -, -⟩ | ⟨-, hactive, -⟩ |
    ⟨-, -, notice, heq⟩
  · rwa [heq]
  · exact absurd hbusy hstate
  · rw [h.inactive] at hactive
    cases hactive
  · rw [heq]
    trivial

theorem Leaves.rests_turns (h : Leaves w l) (first second : Bool) :
    (l.turns [first, second]).Rests := by
  change ((l.turn first).turn second).Rests
  rcases l.turn_cases first with ⟨hrests, heq⟩ | ⟨-, -, heq⟩ | ⟨-, hactive, -⟩ |
    ⟨-, -, notice, heq⟩
  · rwa [heq, turn_of_rests hrests]
  · exact (h.turn first).rests_turn (by rw [heq]; simp [Ticker.callbackEnded]) second
  · rw [h.inactive] at hactive
    cases hactive
  · exact (h.turn first).rests_turn (by rw [heq]; simp [finish, Ticker.stop]) second

theorem Leaves.settle_eq (h : Leaves w l) :
    l.worker.settle l.active l.now = w.inState (w.leaving l.now) := by
  rw [h.inactive, Worker.settle_false, h.leaving_eq]
  rcases h.worker with heq | ⟨state, -, heq, -⟩ <;> rw [heq]
  rfl

/-- Two turns at any moment are enough for the task to end, unless its callback is still running:
it never waits for another tick. -/
theorem Leaves.worker_turns (h : Leaves w l) (first second : Bool) :
    (l.turns [first, second]).worker = w.inState (w.leaving l.now) :=
  (h.sound.worker_turns (h.rests_turns first second)).trans h.settle_eq

end Loop

end Bundling
