import Bundling.Coordinator.Call

/-!
A coordinator together with all calls ever made on it. A `Move` is one uninterrupted stretch of one
call, or a change of the timer's surroundings; a run is any list of moves, so every interleaving of
calls at their waits is a run. A move that is not possible changes nothing.
-/

set_option autoImplicit false
set_option relaxedAutoImplicit false

namespace Bundling

namespace Stage

variable {α β : Type}

/-- How far a call is from its end, results to emit aside. -/
def rank : Stage α β → Nat
  | queued => 11
  | opening => 10
  | starting _ => 9
  | processing _ => 8
  | finishing _ => 7
  | draining _ => 6
  | emitting _ _ _ _ => 5
  | releasing _ _ => 4
  | forwarding _ => 3
  | queuedToRelease _ => 2
  | closingUnit _ => 1
  | ended _ => 0

/-- The results still to emit after the one under way. -/
def remaining : Stage α β → Nat
  | emitting _ _ rest _ => rest.length
  | _ => 0

/-- The order in which stages follow one another. -/
def Before (s t : Stage α β) : Prop :=
  Prod.Lex (· < ·) (· < ·) (s.rank, s.remaining) (t.rank, t.remaining)

theorem Before.of_rank_lt {s t : Stage α β} (h : s.rank < t.rank) : Before s t :=
  Prod.Lex.left _ _ h

end Stage

namespace Coordinator

variable {α β : Type}

theorem rank_settleRelease (c : Coordinator) (r : Release) (f : Option Failure) :
    (c.settleRelease r f : Coordinator × Stage α β).2.rank = 0 := by
  unfold settleRelease
  dsimp only
  split <;> rfl

theorem rank_enterRelease (c : Coordinator) (r : Release) :
    (c.enterRelease r : Coordinator × Stage α β).2.rank ≤ 1 := by
  unfold enterRelease
  split
  · exact Nat.le_refl 1
  · rw [rank_settleRelease]
    exact Nat.zero_le 1

theorem rank_beginRelease (c : Coordinator) (i : Nat) (f : Option Failure) :
    (c.beginRelease i f : Coordinator × Stage α β).2.rank ≤ 2 := by
  unfold beginRelease
  split
  · exact Nat.zero_le 2
  · unfold askToRelease
    dsimp only
    split
    · exact Nat.le_trans (rank_enterRelease _ _) (by decide)
    · exact Nat.le_refl 2

theorem rank_afterClose (c : Coordinator) (i : Nat) (request : Request α)
    (result : Except Failure Bool) :
    (c.afterClose i request result : Coordinator × Stage α β).2.rank ≤ 3 := by
  unfold afterClose
  split
  case h_6 => exact Nat.le_trans (rank_beginRelease _ _ _) (by decide)
  case h_7 => exact Nat.le_trans (rank_beginRelease _ _ _) (by decide)
  all_goals first | exact Nat.zero_le 3 | exact Nat.le_refl 3

theorem rank_beginClose (c : Coordinator) (i : Nat) (request : Request α) (t : Trigger) :
    (c.beginClose i request t : Coordinator × Stage α β).2.rank ≤ 7 := by
  unfold beginClose
  split
  · exact Nat.le_refl 7
  · exact Nat.le_trans (rank_afterClose _ _ _ _) (by decide)

theorem rank_settleClose (c : Coordinator) (i : Nat) (request : Request α) (close : Close)
    (total : Nat) : (c.settleClose i request close total : Coordinator × Stage α β).2.rank ≤ 4 := by
  unfold settleClose
  dsimp only
  split
  · exact Nat.le_refl 4
  · exact Nat.le_trans (rank_afterClose _ _ _ _) (by decide)

theorem emitNext_before (c : Coordinator) (i : Nat) (request : Request α) (close : Close)
    (total : Nat) (results : List β) {s : Stage α β}
    (h : 5 < s.rank ∨ s.rank = 5 ∧ s.remaining = results.length) :
    (c.emitNext i request close total results).2.Before s := by
  cases results with
  | nil =>
    have hrank := rank_settleClose (β := β) c i request close total
    apply Stage.Before.of_rank_lt
    change (c.settleClose i request close total : Coordinator × Stage α β).2.rank < s.rank
    omega
  | cons r rest =>
    rcases h with h | ⟨hrank, hremaining⟩
    · exact Stage.Before.of_rank_lt h
    · unfold Stage.Before
      rw [hrank, hremaining]
      exact Prod.Lex.right _ (Nat.lt_succ_self _)

theorem rank_enter (c : Coordinator) (i : Nat) (request : Request α) :
    (c.enter i request : Coordinator × Stage α β).2.rank ≤ 10 := by
  have hclose := fun (d : Coordinator) (t : Trigger) ↦
    Nat.le_trans (rank_beginClose (β := β) d i request t) (by decide : 7 ≤ 10)
  have hafter :=
    Nat.le_trans (rank_afterClose (β := β) c i request (.ok false)) (by decide : 3 ≤ 10)
  cases request <;> unfold enter <;> dsimp only
  case start =>
    split
    · exact Nat.zero_le 10
    · split
      · exact Nat.zero_le 10
      · exact Nat.le_refl 10
  case submit =>
    split
    · exact Nat.zero_le 10
    · split
      · exact Nat.zero_le 10
      · split <;> simp [Stage.rank]
  case watermark =>
    split
    · exact Nat.zero_le 10
    · split
      · exact Nat.zero_le 10
      · split
        · exact hclose c _
        · split <;> simp [Stage.rank, leave]
  case checkAge =>
    split
    · exact hclose c _
    · exact hafter
  case tick =>
    split
    · exact hclose c _
    · exact hafter
  case shutdown => exact Nat.zero_le 10
  all_goals exact hclose c _

/-- Every answer brings a call nearer to its end. -/
theorem resume_before (c : Coordinator) (i : Nat) (request : Request α) (stage : Stage α β)
    (answer : Except Failure (List β)) (h : stage.operation?.isSome = true) :
    (c.resume i request stage answer).2.Before stage := by
  have hafter := fun (d : Coordinator) (r : Except Failure Bool) ↦
    rank_afterClose (β := β) d i request r
  have hend := fun (d : Coordinator) (r : Release) (f : Option Failure) ↦
    rank_settleRelease (α := α) (β := β) d r f
  cases stage with
  | queued => simp [Stage.operation?] at h
  | queuedToRelease r => simp [Stage.operation?] at h
  | ended r => simp [Stage.operation?] at h
  | opening =>
    cases answer <;> apply Stage.Before.of_rank_lt
    · exact Nat.zero_lt_succ 9
    · change (c.opened : Coordinator × Stage α β).2.rank < 10
      unfold opened
      split <;> exact Nat.zero_lt_succ 9
  | starting x =>
    cases answer <;> apply Stage.Before.of_rank_lt
    · exact Nat.zero_lt_succ 8
    · exact Nat.lt_succ_self 8
  | processing x =>
    cases answer <;> apply Stage.Before.of_rank_lt
    · exact Nat.zero_lt_succ 7
    · change (c.accepted i request : Coordinator × Stage α β).2.rank < 8
      unfold accepted
      dsimp only
      split
      · exact Nat.lt_succ_of_le (rank_beginClose _ _ _ _)
      · exact Nat.zero_lt_succ 7
  | finishing close =>
    cases answer <;> apply Stage.Before.of_rank_lt
    · exact Nat.lt_of_le_of_lt (hafter _ _) (show 3 < 7 by decide)
    · exact Nat.lt_succ_self 6
  | draining close =>
    cases answer
    · exact Stage.Before.of_rank_lt (Nat.lt_of_le_of_lt (hafter _ _) (show 3 < 6 by decide))
    · exact emitNext_before _ _ _ _ _ _ (Or.inl (Nat.lt_succ_self 5))
  | emitting close r rest total =>
    cases answer
    · exact Stage.Before.of_rank_lt (Nat.lt_of_le_of_lt (hafter _ _) (show 3 < 5 by decide))
    · exact emitNext_before _ _ _ _ _ _ (Or.inr ⟨rfl, rfl⟩)
  | releasing close w =>
    cases answer <;>
      exact Stage.Before.of_rank_lt (Nat.lt_of_le_of_lt (hafter _ _) (show 3 < 4 by decide))
  | forwarding w =>
    cases answer <;> exact Stage.Before.of_rank_lt (Nat.zero_lt_succ 2)
  | closingUnit r =>
    cases answer <;> apply Stage.Before.of_rank_lt
    · exact Nat.lt_of_le_of_lt (Nat.le_of_eq (hend _ _ _)) (show 0 < 1 by decide)
    · exact Nat.lt_of_le_of_lt (Nat.le_of_eq (hend _ _ _)) (show 0 < 1 by decide)

end Coordinator

structure World (α β : Type) where
  coordinator : Coordinator
  calls : List (Call α β) := []
  deriving DecidableEq, Inhabited

inductive Move (α β : Type) where
  | issue (request : Request α)
  | proceed (call : Nat) (answer : Except Failure (List β))
  | clock (now : Int64)
  | timerFaults (schedule cancel : Option Fault)

namespace World

variable {α β : Type}

/-- Makes a call and runs its first stretch. The call is known by its place among all calls. -/
def issue (w : World α β) (request : Request α) : World α β :=
  let (c, stage) := w.coordinator.begin w.calls.length request
  ⟨c, w.calls ++ [⟨request, stage⟩]⟩

def stage? (w : World α β) (i : Nat) : Option (Stage α β) := (w.calls[i]?).map (·.stage)

def holdsLock (w : World α β) (i : Nat) : Bool := w.coordinator.lock.holder == some i

/-- The next stretch of a call, where it can run; `answer` is what the collaborator that the call
waits for has answered. -/
def stretch (w : World α β) (i : Nat) (call : Call α β) (answer : Except Failure (List β)) :
    Coordinator × Stage α β :=
  match call.stage with
  | .queued =>
    if w.holdsLock i then w.coordinator.enter i call.request else (w.coordinator, .queued)
  | .queuedToRelease r =>
    if w.holdsLock i then w.coordinator.enterRelease r else (w.coordinator, .queuedToRelease r)
  | stage => w.coordinator.resume i call.request stage answer

def proceed (w : World α β) (i : Nat) (answer : Except Failure (List β)) : World α β :=
  match w.calls[i]? with
  | none => w
  | some call =>
    let (c, stage) := w.stretch i call answer
    ⟨c, w.calls.set i { call with stage := stage }⟩

def setClock (w : World α β) (now : Int64) : World α β :=
  { w with coordinator := { w.coordinator with timer := { w.coordinator.timer with now := now } } }

def setTimerFaults (w : World α β) (schedule cancel : Option Fault) : World α β :=
  { w with coordinator := { w.coordinator with timer := { w.coordinator.timer with
      scheduleFault := schedule, cancelFault := cancel } } }

def step (w : World α β) : Move α β → World α β
  | .issue request => w.issue request
  | .proceed i answer => w.proceed i answer
  | .clock now => w.setClock now
  | .timerFaults schedule cancel => w.setTimerFaults schedule cancel

def run (w : World α β) (moves : List (Move α β)) : World α β := moves.foldl step w

end World

end Bundling
