/-!
The task of a periodic registration. Its deadlines lie on the grid of its period. A deadline seen
little late is followed by the next grid point, even if that has passed too; one seen later is
followed by the first grid point after the moment it was seen, so the points between are skipped.
-/

set_option autoImplicit false
set_option relaxedAutoImplicit false

namespace Bundling

/-- How late, in milliseconds, a deadline may be seen without skipping grid points. -/
def latenessTolerance : Nat := 5

/-- The deadline after one that is seen now, on a scale of time on which `tolerance` is how late it
may be seen without skipping grid points. -/
def deadlineAfter (tolerance period deadline now : Nat) : Nat :=
  if now ≤ deadline + tolerance then deadline + period
  else now + period - (now - deadline) % period

theorem lt_deadlineAfter {period : Nat} (h : 0 < period) (tolerance deadline now : Nat) :
    deadline < deadlineAfter tolerance period deadline now := by
  have hmod : (now - deadline) % period < period := Nat.mod_lt _ h
  unfold deadlineAfter
  split <;> omega

/-- The deadline after one that is seen now, in milliseconds. -/
def nextDeadline (period deadline now : Nat) : Nat :=
  deadlineAfter latenessTolerance period deadline now

theorem lt_nextDeadline {period : Nat} (h : 0 < period) (deadline now : Nat) :
    deadline < nextDeadline period deadline now :=
  lt_deadlineAfter h latenessTolerance deadline now

/-- Where a task stands: waiting for its deadline, inside its callback, or over. -/
inductive TaskState where
  | waiting
  | busy
  | over
  deriving DecidableEq, Inhabited

structure Ticker where
  period : Nat
  deadline : Nat
  state : TaskState := .waiting
  deriving DecidableEq, Inhabited

namespace Ticker

/-- The ticker that a task makes when it first runs: its grid starts at that moment, not at the one
at which the registration was asked for. -/
def scheduled (period now : Nat) : Ticker := { period := period, deadline := now + period }

/-- Whether a task that is still wanted would start its callback now. -/
def isDue (t : Ticker) (now : Nat) : Bool :=
  t.state == .waiting && decide (t.deadline ≤ now) && decide (0 < t.period)

/-- A callback is started, on a scale of time with this tolerance. -/
def startWithin (t : Ticker) (tolerance now : Nat) : Ticker :=
  { t with deadline := deadlineAfter tolerance t.period t.deadline now, state := .busy }

def start (t : Ticker) (now : Nat) : Ticker := t.startWithin latenessTolerance now

@[simp] theorem start_deadline (t : Ticker) (now : Nat) :
    (t.start now).deadline = nextDeadline t.period t.deadline now := rfl

@[simp] theorem start_state (t : Ticker) (now : Nat) : (t.start now).state = .busy := rfl

def callbackEnded (t : Ticker) : Ticker := { t with state := .waiting }

def stop (t : Ticker) : Ticker := { t with state := .over }

end Ticker

/-- A task whose callback counts its calls and then takes a fixed time. -/
structure Worker where
  ticker : Ticker
  busyMillis : Nat
  busyUntil : Nat := 0
  calls : Nat := 0
  deriving DecidableEq, Inhabited

namespace Worker

/-- The task as it runs for the first time. -/
def scheduled (periodMillis busyMillis now : Nat) : Worker :=
  { ticker := Ticker.scheduled periodMillis now, busyMillis := busyMillis }

def begin (w : Worker) (now : Nat) : Worker :=
  { w with
    ticker := w.ticker.start now
    busyUntil := now + w.busyMillis
    calls := w.calls + 1 }

def taskRank : TaskState → Nat
  | .busy => 1
  | _ => 0

/-- Lets the task run at one moment until it waits. `active` tells whether its registration still
stands; a waiting task without one is over. -/
def settle (active : Bool) (now : Nat) (w : Worker) : Worker :=
  match _hstate : w.ticker.state with
  | .over => w
  | .busy =>
    if w.busyUntil ≤ now then settle active now { w with ticker := w.ticker.callbackEnded } else w
  | .waiting =>
    if !active then { w with ticker := w.ticker.stop }
    else if _hdue : w.ticker.isDue now = true then settle active now (w.begin now)
    else w
termination_by (now + 1 - w.ticker.deadline, taskRank w.ticker.state)
decreasing_by
  · right
    simp [Ticker.callbackEnded, taskRank, _hstate]
  · left
    simp only [Ticker.isDue, Bool.and_eq_true, decide_eq_true_eq] at _hdue
    have hlt := lt_nextDeadline _hdue.2 w.ticker.deadline now
    simp only [begin, Ticker.start_deadline]
    omega

end Worker

end Bundling
