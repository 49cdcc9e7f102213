import Bundling.Coordinator.World
import Bundling.Recorder

/-!
A coordinator, its calls, and a recorder that answers them. Each operation may also be made to fail
for once; the recorder then does not see it.
-/

set_option autoImplicit false
set_option relaxedAutoImplicit false

namespace Bundling

structure Rig (α : Type) where
  world : World α α
  recorder : Recorder α := {}
  deriving Inhabited

namespace Rig

variable {α : Type}

def issue (r : Rig α) (request : Request α) : Rig α := { r with world := r.world.issue request }

/-- What the operation that a call waits for answers; nothing while it has to wait. -/
def answer (r : Rig α) (op : Operation α α) :
    Option Failure → Option (Except Failure (List α) × Recorder α)
  | some f => some (.error f, r.recorder)
  | none => r.recorder.perform op

/-- The next stretch of a call, where it can run. -/
def proceed? (r : Rig α) (i : Nat) (fault : Option Failure) : Option (Rig α) :=
  match r.world.stage? i with
  | none => none
  | some stage =>
    match stage.operation? with
    | some op => (r.answer op fault).map fun a ↦ ⟨r.world.proceed i a.1, a.2⟩
    | none =>
      if stage.awaitsLock && r.world.holdsLock i then
        some { r with world := r.world.proceed i (.ok []) }
      else none

def proceed (r : Rig α) (i : Nat) (fault : Option Failure) : Rig α := (r.proceed? i fault).getD r

inductive Move (α : Type) where
  | issue (request : Request α)
  | proceed (call : Nat) (fault : Option Failure)
  | clock (now : Int64)

def step (r : Rig α) : Move α → Rig α
  | .issue request => r.issue request
  | .proceed i fault => r.proceed i fault
  | .clock now => { r with world := r.world.setClock now }

def run (r : Rig α) (moves : List (Move α)) : Rig α := moves.foldl step r

/-- How far a call is from its end. -/
def distance (r : Rig α) (i : Nat) : Nat × Nat :=
  match r.world.stage? i with
  | none => (0, 0)
  | some stage => (stage.rank, stage.remaining)

end Rig

namespace World

variable {α β : Type}

theorem stretch_before (w : World α β) (i : Nat) (call : Call α β)
    (answer : Except Failure (List β))
    (h : call.stage.operation?.isSome = true ∨
      (call.stage.awaitsLock = true ∧ w.holdsLock i = true)) :
    (w.stretch i call answer).2.Before call.stage := by
  unfold stretch
  split
  case h_1 hstage =>
    rw [hstage] at h ⊢
    have hholds : w.holdsLock i = true := by
      rcases h with h | h
      · simp [Stage.operation?] at h
      · exact h.2
    rw [if_pos hholds]
    exact Stage.Before.of_rank_lt
      (Nat.lt_succ_of_le (Coordinator.rank_enter w.coordinator i call.request))
  case h_2 release hstage =>
    rw [hstage] at h ⊢
    have hholds : w.holdsLock i = true := by
      rcases h with h | h
      · simp [Stage.operation?] at h
      · exact h.2
    rw [if_pos hholds]
    exact Stage.Before.of_rank_lt
      (Nat.lt_succ_of_le (Coordinator.rank_enterRelease w.coordinator release))
  case h_3 hqueued hrelease =>
    apply Coordinator.resume_before
    rcases h with h | ⟨hawaits, _⟩
    · exact h
    · cases hstage : call.stage <;> rw [hstage] at hawaits <;> simp [Stage.awaitsLock] at hawaits
      · exact absurd hstage hqueued
      · exact absurd hstage (hrelease _)

theorem stage?_proceed (w : World α β) (i : Nat) (answer : Except Failure (List β))
    (call : Call α β) (hcall : w.calls[i]? = some call) :
    (w.proceed i answer).stage? i = some (w.stretch i call answer).2 := by
  have hlt : i < w.calls.length := by
    rcases Nat.lt_or_ge i w.calls.length with hlt | hge
    · exact hlt
    · rw [List.getElem?_eq_none hge] at hcall
      cases hcall
  have hproceed : w.proceed i answer = ⟨(w.stretch i call answer).1,
      w.calls.set i { call with stage := (w.stretch i call answer).2 }⟩ := by
    unfold proceed
    rw [hcall]
  rw [hproceed]
  simp [stage?, hlt]

end World

namespace Rig

variable {α : Type}

/-- A call that runs comes nearer to its end. -/
theorem distance_proceed? {r r' : Rig α} {i : Nat} {fault : Option Failure}
    (h : r.proceed? i fault = some r') :
    Prod.Lex (· < ·) (· < ·) (r'.distance i) (r.distance i) := by
  unfold proceed? at h
  split at h
  case h_1 => cases h
  case h_2 stage hstage =>
    obtain ⟨call, hcall, hcallStage⟩ := Option.map_eq_some_iff.mp hstage
    subst hcallStage
    have key (answer : Except Failure (List α)) (recorder : Recorder α)
        (hgo : call.stage.operation?.isSome = true ∨
          (call.stage.awaitsLock = true ∧ r.world.holdsLock i = true)) :
        Prod.Lex (· < ·) (· < ·) ((⟨r.world.proceed i answer, recorder⟩ : Rig α).distance i)
          (r.distance i) := by
      unfold distance
      rw [hstage, World.stage?_proceed r.world i answer call hcall]
      exact World.stretch_before r.world i call answer hgo
    split at h
    case h_1 op hop =>
      obtain ⟨a, _, ha⟩ := Option.map_eq_some_iff.mp h
      subst ha
      exact key _ _ (Or.inl (by rw [hop]; rfl))
    case h_2 =>
      split at h
      case isTrue hgo =>
        rw [Bool.and_eq_true] at hgo
        cases h
        exact key _ _ (Or.inr hgo)
      case isFalse => cases h

end Rig

end Bundling
