import Bundling.Bench.Basic

/-!
Calls made one after another, and the tasks of periodic registrations. Between two of its polls an
activity waits inside one call. A `round` polls several activities in turn; `drive` repeats rounds,
and where all wait for time it jumps to the next moment at which something happens.
-/

set_option autoImplicit false
set_option relaxedAutoImplicit false

namespace Bundling

inductive Purpose where
  | single
  | series
  | ticks
  deriving DecidableEq, Inhabited

/-- Calls made one after another. A series ends with the first that fails. -/
structure Activity (α : Type) where
  purpose : Purpose
  current : Option Nat := none
  todo : List (Request α) := []
  succeeded : Nat := 0
  reply : Reply := .done
  deriving Inhabited

namespace Activity

variable {α : Type}

def isOver (a : Activity α) : Bool := a.current.isNone && a.todo.isEmpty

/-- How many calls are still to end. -/
def size (a : Activity α) : Nat := a.todo.length + a.current.toList.length

/-- The activity after a call of it has ended. -/
def ended (a : Activity α) (reply : Reply) : Activity α :=
  match a.purpose, reply with
  | .series, .failed _ => { a with current := none, todo := [], reply := reply }
  | _, _ => { a with current := none, succeeded := a.succeeded + 1, reply := reply }

end Activity

namespace Bench

variable {α : Type}

/-- Makes the calls of a list until one waits, or until a call ends the activity. -/
def makeCalls (b : Bench α) (a : Activity α) : List (Request α) → Bench α × Activity α
  | [] => (b, { a with todo := [] })
  | request :: rest =>
    let (i, b) := b.issue request
    let b := b.poll i
    match b.reply? i with
    | none => (b, { a with current := some i, todo := rest })
    | some reply =>
      let a := { a with todo := rest }.ended reply
      if a.todo.isEmpty then (b, a) else makeCalls b a rest

/-- Runs an activity until it waits or is over. -/
def pollActivity (b : Bench α) (a : Activity α) : Bench α × Activity α :=
  match a.current with
  | none => b.makeCalls a a.todo
  | some i =>
    let b := b.poll i
    match b.reply? i with
    | none => (b, a)
    | some reply =>
      let a := a.ended reply
      b.makeCalls a a.todo

def canAdvance (b : Bench α) (a : Activity α) : Bool := a.current.any fun i ↦ (b.advance? i).isSome

/-- Continues activities in order, each as far as it gets. -/
def round (b : Bench α) : List (Activity α) → Bench α × List (Activity α)
  | [] => (b, [])
  | a :: rest =>
    let (b, a) := b.pollActivity a
    let (b, rest) := b.round rest
    (b, a :: rest)

/-- Lets a task run at one moment. Each callback started moves the deadline on, so `fuel` bounds how
many are started and ended. -/
def settleTask (b : Bench α) (active : Bool) (task : Task) : Nat → Bench α × Task
  | 0 => (b, task)
  | fuel + 1 =>
    match task.call with
    | some i =>
      let b := b.poll i
      match b.reply? i with
      | none => (b, task)
      | some _ => b.settleTask active ⟨task.ticker.callbackEnded, none⟩ fuel
    | none =>
      if task.ticker.state = .over then (b, task)
      else if !active then
        (b.setCoordinator (b.coordinator.noteAll [.timerNotified, .timerEnded]),
          ⟨task.ticker.stop, none⟩)
      else if task.ticker.isDue b.now then
        let (i, b) := b.issue .tick
        b.settleTask active ⟨task.ticker.start b.now, some i⟩ fuel
      else (b, task)

def settleTasks (b : Bench α) (index : Nat) : List Task → Bench α × List Task
  | [] => (b, [])
  | task :: rest =>
    let (b, task) := b.settleTask (b.timer.isActive index) task
      (2 * (b.now + 1 - task.ticker.deadline) + 3)
    let (b, rest) := b.settleTasks (index + 1) rest
    (b, task :: rest)

/-- Tasks for the registrations that have none yet. -/
def newTasks (b : Bench α) : List Task :=
  (b.timer.registrations.drop b.tasks.length).map fun r ↦
    ⟨Ticker.scheduled r.periodMillis b.now, none⟩

/-- Lets all tasks run until they wait. -/
def settle (b : Bench α) : Bench α :=
  if b.isVirtual then
    let (b, tasks) := b.settleTasks 0 (b.tasks ++ b.newTasks)
    { b with tasks := tasks }
  else b

/-- The moments still ahead at which something may happen. -/
def wakes (b : Bench α) : List Nat :=
  (b.underway.toList ++ (b.tasks.filter fun t ↦ t.ticker.state == .waiting).map
    fun t ↦ t.ticker.deadline).filter fun t ↦ b.now < t

def nextWake? (b : Bench α) : Option Nat := if b.isVirtual then b.wakes.min? else none

/-- Continues activities until all are over, or none ever will be. -/
def driveFor (b : Bench α) (as : List (Activity α)) : Nat → Bench α × List (Activity α)
  | 0 => (b, as)
  | fuel + 1 =>
    let (b, as) := b.round as
    let b := b.settle
    if as.all Activity.isOver then (b, as)
    else if as.any b.canAdvance then b.driveFor as fuel
    else
      match b.nextWake? with
      | none => (b, as)
      | some t => (b.setNow t).driveFor as fuel

/-- Every round ends a call or is followed by a jump, and no call waits longer than for the bundles
finished before it. -/
def drive (b : Bench α) (as : List (Activity α)) : Bench α × List (Activity α) :=
  b.driveFor as ((as.foldl (fun n a ↦ n + a.size) 1) * (3 * (b.finishDelay + 2)))

end Bench

end Bundling
