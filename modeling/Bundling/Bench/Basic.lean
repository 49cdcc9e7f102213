import Bundling.Coordinator.Rig
import Bundling.Timer.Grid

/-!
A test bench for a coordinator. Before a recorder's operation starts it passes a gate, which may be
shut on one kind of operation, and a plan of faults. `poll` runs one call as far as it gets without
waiting for the gate, for the lock, for time or for room in a channel.
-/

set_option autoImplicit false
set_option relaxedAutoImplicit false

namespace Bundling

/-- The task of a periodic registration, and the age check that its callback is waiting for. -/
structure Task where
  ticker : Ticker
  call : Option Nat := none
  deriving DecidableEq, Inhabited

structure Bench (α : Type) where
  rig : Rig α
  /-- The kind of operation that the gate is shut on. -/
  gate : Option Target := none
  faults : List (Target × Fault) := []
  /-- The moment from which the operation under way can complete, once it has passed the gate. -/
  underway : Option Nat := none
  finishDelay : Nat := 0
  /-- Virtual time; it stands still where the timer is moved by hand. -/
  now : Nat := 0
  tasks : List Task := []
  abandoned : Bool := false
  deriving Inhabited

namespace Bench

variable {α : Type}

def coordinator (b : Bench α) : Coordinator := b.rig.world.coordinator

def timer (b : Bench α) : Timer := b.coordinator.timer

def journal (b : Bench α) : Journal α := b.rig.recorder.journal

def setCoordinator (b : Bench α) (c : Coordinator) : Bench α :=
  { b with rig := { b.rig with world := { b.rig.world with coordinator := c } } }

def setTimer (b : Bench α) (t : Timer) : Bench α :=
  b.setCoordinator { b.coordinator with timer := t }

def setRecorder (b : Bench α) (r : Recorder α) : Bench α :=
  { b with rig := { b.rig with recorder := r } }

/-- Whether time is virtual, so that it can be jumped over. -/
def isVirtual (b : Bench α) : Bool :=
  match b.timer.kind with
  | .manual _ => false
  | .periodic _ => true

def setNow (b : Bench α) (now : Nat) : Bench α :=
  { b with now := now }.setTimer { b.timer with now := Int64.ofNat now }

/-- Plans a fault, in place of an earlier plan for the same kind of operation. -/
def inject (b : Bench α) (target : Target) (fault : Fault) : Bench α :=
  match target with
  | .schedule => b.setTimer { b.timer with scheduleFault := some fault }
  | .cancel => b.setTimer { b.timer with cancelFault := some fault }
  | _ => { b with faults := (target, fault) :: b.faults.filter fun f ↦ f.1 != target }

def clearFaults (b : Bench α) : Bench α :=
  { b with faults := [] }.setTimer { b.timer with scheduleFault := none, cancelFault := none }

/-- The fault of the next operation of a kind, and the plans after it. -/
def drawFault (target : Target) :
    List (Target × Fault) → Option Failure × List (Target × Fault)
  | [] => (none, [])
  | f :: rest =>
    if f.1 = target then (f.2.next.1, (target, f.2.next.2) :: rest)
    else ((drawFault target rest).1, f :: (drawFault target rest).2)

/-- How long an operation takes. Only finishing a bundle takes time, and only where time is virtual;
an operation that fails for good takes none. -/
def duration (b : Bench α) (target : Target) : Nat :=
  if target = .finishBundle ∧ b.isVirtual ∧ (b.rig.recorder.refusal? target).isNone then
    b.finishDelay
  else 0

def operation? (b : Bench α) (i : Nat) : Option (Operation α α) :=
  (b.rig.world.stage? i).bind Stage.operation?

def reply? (b : Bench α) (i : Nat) : Option Reply := (b.rig.world.stage? i).bind Stage.reply?

/-- The operation that a call waits for meets the gate and the faults, or completes. -/
def operate? (b : Bench α) (i : Nat) (target : Target) : Option (Bench α) :=
  match b.underway with
  | some done =>
    if done ≤ b.now then
      (b.rig.proceed? i none).map fun rig ↦ { b with rig := rig, underway := none }
    else none
  | none =>
    if b.gate = some target then none
    else
      match drawFault target b.faults with
      | (some f, faults) =>
        (b.rig.proceed? i (some f)).map fun rig ↦ { b with rig := rig, faults := faults }
      | (none, faults) => some { b with
          faults := faults
          underway := some (b.now + b.duration target) }

/-- The next thing that happens to a call, unless it waits or has ended. -/
def advance? (b : Bench α) (i : Nat) : Option (Bench α) :=
  match b.operation? i with
  | some op => b.operate? i op.target
  | none => (b.rig.proceed? i none).map fun rig ↦ { b with rig := rig }

/-- How far a call is from its end. -/
def distance (b : Bench α) (i : Nat) : (Nat × Nat) × Nat :=
  (b.rig.distance i, if b.underway.isSome then 0 else 1)

theorem distance_operate? {b b' : Bench α} {i : Nat} {target : Target}
    (h : b.operate? i target = some b') :
    Prod.Lex (Prod.Lex (· < ·) (· < ·)) (· < ·) (b'.distance i) (b.distance i) := by
  unfold operate? at h
  split at h
  case h_1 =>
    split at h
    case isTrue =>
      obtain ⟨rig, hrig, hb⟩ := Option.map_eq_some_iff.mp h
      subst hb
      exact Prod.Lex.left _ _ (Rig.distance_proceed? hrig)
    case isFalse => cases h
  case h_2 hunderway =>
    split at h
    case isTrue => cases h
    case isFalse =>
      split at h
      case h_1 =>
        obtain ⟨rig, hrig, hb⟩ := Option.map_eq_some_iff.mp h
        subst hb
        exact Prod.Lex.left _ _ (Rig.distance_proceed? hrig)
      case h_2 =>
        cases h
        have hlater : b.distance i = (b.rig.distance i, 1) := by simp [distance, hunderway]
        rw [hlater]
        exact Prod.Lex.right _ Nat.zero_lt_one

theorem distance_advance? {b b' : Bench α} {i : Nat} (h : b.advance? i = some b') :
    Prod.Lex (Prod.Lex (· < ·) (· < ·)) (· < ·) (b'.distance i) (b.distance i) := by
  unfold advance? at h
  split at h
  case h_1 => exact distance_operate? h
  case h_2 =>
    obtain ⟨rig, hrig, hb⟩ := Option.map_eq_some_iff.mp h
    subst hb
    exact Prod.Lex.left _ _ (Rig.distance_proceed? hrig)

/-- Runs a call until it waits or ends. -/
def poll (b : Bench α) (i : Nat) : Bench α :=
  match _h : b.advance? i with
  | none => b
  | some b' => b'.poll i
termination_by b.distance i
decreasing_by exact distance_advance? _h

/-- Makes a call; it is known by the number given back. -/
def issue (b : Bench α) (request : Request α) : Nat × Bench α :=
  (b.rig.world.calls.length, { b with rig := b.rig.issue request })

/-- Drops the last reference to the coordinator from outside. -/
def abandon (b : Bench α) : Bench α :=
  if b.abandoned then b else { b.setCoordinator b.coordinator.abandon with abandoned := true }

end Bench

end Bundling
