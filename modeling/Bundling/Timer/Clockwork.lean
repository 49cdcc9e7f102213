import Bundling.Timer.Grid
import Bundling.Timer.Registry

/-!
A timer source together with the callbacks of its registrations, which count their calls. A manual
source makes its calls when it is fired; a periodic one runs a task for each registration. A task
does nothing before the tasks are run for the first time after its registration, and the clock may
have moved on until then.
-/

set_option autoImplicit false
set_option relaxedAutoImplicit false

namespace Bundling

/-- The callback side of a registration, and whether its handle is still there. -/
structure Post where
  periodMillis : Nat
  busyMillis : Nat
  /-- The task, from the moment at which it first runs. -/
  worker : Option Worker := none
  /-- The calls that were made by hand. -/
  fired : Nat := 0
  held : Bool := true
  deriving DecidableEq, Inhabited

namespace Post

/-- The task as it is when it runs now, be it for the first time. -/
def begun (p : Post) (now : Nat) : Worker :=
  p.worker.getD (Worker.scheduled p.periodMillis p.busyMillis now)

/-- How often the callback has been called. -/
def calls (p : Post) : Nat := p.fired + p.worker.elim 0 Worker.calls

end Post

structure Clockwork where
  timer : Timer
  now : Nat := 0
  posts : List Post := []
  deriving DecidableEq, Inhabited

namespace Clockwork

/-- Why a handle cannot be used, or what using it answers. -/
inductive HandleAnswer where
  | done
  | failed (f : Failure)
  | gone
  deriving DecidableEq, Inhabited

def isHeld (c : Clockwork) (index : Nat) : Bool := (c.posts[index]?).any (·.held)

/-- Lets every task run until it waits. -/
def settle (c : Clockwork) : Clockwork :=
  match c.timer.kind with
  | .manual _ => c
  | .periodic _ => { c with
      posts := c.posts.mapIdx fun i p ↦
        { p with worker := some ((p.begun c.now).settle (c.timer.isActive i) c.now) } }

def schedule (c : Clockwork) (periodMillis busyMillis : Nat) : Except Failure Nat × Clockwork :=
  let (result, timer, _) := c.timer.schedule periodMillis
  match result with
  | .error f => (.error f, { c with timer := timer })
  | .ok index => (.ok index, { c with
      timer := timer
      posts := c.posts ++ [{ periodMillis := periodMillis, busyMillis := busyMillis }] })

def cancel (c : Clockwork) (index : Nat) : HandleAnswer × Clockwork :=
  if c.isHeld index then
    let (result, timer, _) := c.timer.cancel index
    let c := { c with timer := timer }
    match result with
    | .error f => (.failed f, c)
    | .ok _ => (.done, c)
  else (.gone, c)

def drop (c : Clockwork) (index : Nat) : HandleAnswer × Clockwork :=
  if c.isHeld index then
    (.done, { c with
      timer := (c.timer.drop index).1
      posts := c.posts.modify index fun p ↦ { p with held := false } })
  else (.gone, c)

/-- Moves a manual clock by so many milliseconds. -/
def turn (c : Clockwork) (millis : Int64) : Clockwork := { c with timer := c.timer.advance millis }

def setTime (c : Clockwork) (millis : Int64) : Clockwork :=
  { c with timer := { c.timer with now := millis } }

/-- Jumps over so many milliseconds of virtual time at once. -/
def jump (c : Clockwork) (millis : Nat) : Clockwork :=
  { c with
    now := c.now + millis
    timer := { c.timer with now := Int64.ofNat (c.now + millis) } }

/-- Calls the callbacks of all active registrations, or of all ever made. -/
def fire (c : Clockwork) (cancelledToo : Bool) : Clockwork :=
  { c with posts := c.posts.mapIdx fun i p ↦
      if cancelledToo || c.timer.isActive i then { p with fired := p.fired + 1 } else p }

/-- How often each callback has been called. -/
def calls (c : Clockwork) : List Nat := c.posts.map Post.calls

/-- Whether each registration still stands, as its handle tells. -/
def standing (c : Clockwork) : List (Option Bool) :=
  c.posts.mapIdx fun i p ↦ if p.held then some (c.timer.isActive i) else none

end Clockwork

end Bundling
