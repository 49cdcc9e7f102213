import Bundling.Fault
import Bundling.Notice

/-!
A timer source: its clock and the periodic registrations it has handed out. A manual source is moved
by hand and keeps a registration whose handle is dropped; a periodic one runs a task for each
registration, and the task ends when the registration is cancelled or dropped.
-/

set_option autoImplicit false
set_option relaxedAutoImplicit false

namespace Bundling

inductive TimerKind where
  | manual (refusesCancel : Bool)
  | periodic (hasRuntime : Bool)
  deriving DecidableEq, Inhabited

structure Registration where
  periodMillis : Nat
  active : Bool
  deriving DecidableEq, Inhabited

structure Timer where
  kind : TimerKind
  now : Int64
  registrations : List Registration := []
  cancellations : Nat := 0
  scheduleFault : Option Fault := none
  cancelFault : Option Fault := none
  deriving DecidableEq, Inhabited

namespace Timer

def zeroPeriod : Failure := .timer "Timer period must be greater than zero"

def noRuntime : Failure := .timer ("No tokio runtime available: there is no reactor running, " ++
  "must be called from the context of a Tokio 1.x runtime")

def cancelRefused : Failure := .timer "injected cancel failure"

/-- Why the source would not take a registration of this period. -/
def scheduleRefusal (t : Timer) (periodMillis : Nat) : Option Failure :=
  if periodMillis = 0 then some zeroPeriod
  else if t.kind = .periodic false then some noRuntime
  else none

def scheduleNotices (t : Timer) (periodMillis : Nat) : List Notice :=
  match t.kind with
  | .manual _ => []
  | .periodic _ => [.timerScheduled periodMillis]

/-- Adds a registration and gives its index, unless a planned fault or a refusal comes first. -/
def schedule (t : Timer) (periodMillis : Nat) : Except Failure Nat × Timer × List Notice :=
  let (fault, plan) := Fault.draw t.scheduleFault
  let t := { t with scheduleFault := plan }
  match fault.or (t.scheduleRefusal periodMillis) with
  | some f => (.error f, t, [])
  | none => (.ok t.registrations.length,
      { t with registrations := t.registrations ++ [⟨periodMillis, true⟩] },
      t.scheduleNotices periodMillis)

def isActive (t : Timer) (index : Nat) : Bool := (t.registrations[index]?).any (·.active)

def activeCount (t : Timer) : Nat := t.registrations.countP (·.active)

def deactivate (t : Timer) (index : Nat) : Timer :=
  { t with registrations := t.registrations.modify index fun r ↦ { r with active := false } }

/-- Ends a registration for good. Only the first success counts; a second is silent. -/
def cancel (t : Timer) (index : Nat) : Except Failure Unit × Timer × List Notice :=
  let (fault, plan) := Fault.draw t.cancelFault
  let t := { t with cancelFault := plan }
  let first := t.isActive index
  match fault, t.kind with
  | some f, _ => (.error f, t, [])
  | none, .manual true => (.error cancelRefused, t, [])
  | none, .manual false =>
    let t := t.deactivate index
    (.ok (), if first then { t with cancellations := t.cancellations + 1 } else t, [])
  | none, .periodic _ =>
    (.ok (), t.deactivate index, if first then [.timerCancelled] else [])

/-- Gives up the handle of a registration. -/
def drop (t : Timer) (index : Nat) : Timer × List Notice :=
  match t.kind with
  | .manual _ => (t, [])
  | .periodic _ => (t.deactivate index, if t.isActive index then [.timerDropped] else [])

def advance (t : Timer) (millis : Int64) : Timer := { t with now := t.now + millis }

def text (t : Timer) : String :=
  match t.kind with
  | .manual refuses =>
    "ManualTimerSource \x7b now_millis: " ++ Decimal.text t.now.toInt ++
      ", registrations: " ++ Decimal.text t.registrations.length ++
      ", fail_cancel: " ++ (if refuses then "true" else "false") ++ " \x7d"
  | .periodic _ =>
    "TokioTimerSource \x7b elapsed_millis: " ++ Decimal.text t.now.toInt ++ " \x7d"

end Timer

end Bundling
