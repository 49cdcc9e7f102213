import Bundling.Slot
import Bundling.Tally
import Bundling.Timer.Registry

/-!
The state that all calls on one coordinator share. The execution unit and the sink are used only by
the call that holds the lock; the lock goes to callers in the order in which they asked. Everything
else may be read or changed by any call between two of its waits.
-/

set_option autoImplicit false
set_option relaxedAutoImplicit false

namespace Bundling

/-- The lock around the collaborators: who holds it and who waits for it, longest first. -/
structure Lock where
  holder : Option Nat := none
  queue : List Nat := []
  deriving DecidableEq, Inhabited

namespace Lock

/-- Asks for the lock, and tells whether it was granted at once. -/
def ask (l : Lock) (i : Nat) : Bool × Lock :=
  match l.holder with
  | none => (true, { l with holder := some i })
  | some _ => (false, { l with queue := l.queue ++ [i] })

/-- Gives the lock to the call that has waited longest. -/
def release (l : Lock) : Lock :=
  match l.queue with
  | [] => ⟨none, []⟩
  | i :: queue => ⟨some i, queue⟩

end Lock

structure Coordinator where
  id : String
  policy : Policy
  fallbacks : List Fallback := []
  phase : Phase := .created
  slot : Slot
  tally : Tally := {}
  /-- Whether the execution unit has not been released yet. -/
  hasUnit : Bool := true
  registration : Option Nat := none
  /-- The first failure of a timer tick; every later ingestion call reports it. -/
  latched : Option Failure := none
  lock : Lock := {}
  timer : Timer
  /-- What has been reported, newest first. -/
  notices : List Notice := []
  deriving DecidableEq, Inhabited

namespace Coordinator

def create (id : String) (checked : Checked) (timer : Timer) : Coordinator where
  id := id
  policy := checked.policy
  fallbacks := checked.fallbacks
  slot := Slot.fresh timer.now
  timer := timer

def note (c : Coordinator) (n : Notice) : Coordinator := { c with notices := n :: c.notices }

def noteAll (c : Coordinator) (ns : List Notice) : Coordinator :=
  { c with notices := ns.reverse ++ c.notices }

def unlock (c : Coordinator) : Coordinator := { c with lock := c.lock.release }

/-- Keeps a failure for later calls, unless one is kept already. -/
def latch (c : Coordinator) (f : Failure) : Coordinator :=
  { c with latched := c.latched.or (some f) }

def isTimerActive (c : Coordinator) : Bool := c.registration.any c.timer.isActive

/-- Whether the age limit has passed since the last close. -/
def isExpired (c : Coordinator) : Bool :=
  c.policy.maxAgeMillis ≤ c.slot.age c.timer.now

/-- A call is turned away with the failure of an earlier timer tick. -/
def healthy (c : Coordinator) : Except Failure Unit :=
  match c.latched with
  | some f => .error f
  | none => .ok ()

def running (c : Coordinator) (doing : String) : Except Failure Unit :=
  match c.latched with
  | some f => .error f
  | none =>
    if c.phase = .running then .ok () else .error (.refused (.notRunning doing c.phase))

/-- Registers the age check with the timer. -/
def schedule (c : Coordinator) : Except Failure Unit × Coordinator :=
  let (result, timer, notices) := c.timer.schedule c.policy.checkPeriod.toMillis
  let c := { c with timer := timer }.noteAll notices
  match result with
  | .error f => (.error f, c)
  | .ok index => (.ok (), { c with registration := some index })

/-- Gives up the registration: it is cancelled and its handle dropped, whether cancelling works or
not. -/
def cancelRegistration (c : Coordinator) : Option Failure × Coordinator :=
  match c.registration with
  | none => (none, c)
  | some index =>
    let (result, timer, notices) := c.timer.cancel index
    let c := { c with timer := timer, registration := none }.noteAll notices
    let (failure, c) := match result with
      | .ok _ => (none, c)
      | .error f =>
        (some f, c.note (.problem "bundling_coordinator" "cancel_timer" f.message none))
    let (timer, notices) := c.timer.drop index
    (failure, { c with timer := timer }.noteAll notices)

/-- A coordinator that nothing refers to any more gives up its registration without cancelling. -/
def abandon (c : Coordinator) : Coordinator :=
  match c.registration with
  | none => c
  | some index =>
    let (timer, notices) := c.timer.drop index
    { c with timer := timer, registration := none }.noteAll notices

def text (c : Coordinator) : String :=
  "BundlingCoordinator \x7b id: " ++ c.id ++ ", phase: " ++ c.phase.label ++
    ", policy: ThresholdPolicy \x7b max_items: " ++ Decimal.text c.policy.maxItems.toNat ++
    ", max_age: " ++ c.policy.maxAge.text ++ " \x7d, state: " ++ c.slot.text ++ " \x7d"

end Coordinator

end Bundling
