import Bundling.Bench.Activity

/-!
Scripts for a test bench. A step makes calls or turns one of the bench's knobs. A race shuts the
gate on one kind of operation, starts its steps one after another, opens the gate, and continues
what is unfinished.
-/

set_option autoImplicit false
set_option relaxedAutoImplicit false

namespace Bundling

/-- Why a step makes no sense on a bench. -/
inductive Rejection where
  | dropped
  | noReceiver
  | needsManualTimer
  | unknownStep
  | unknownTrigger
  deriving DecidableEq, Inhabited

inductive Step (α : Type) where
  | call (request : Request α)
  | submitAll (items : List α)
  | fire (cancelledToo : Bool)
  | advance (millis : Int)
  | setTime (millis : Int64)
  | inject (target : Target) (fault : Fault)
  | clearFaults
  | receive
  | dropReceiver
  | abandon
  | tally
  | text
  | meaningless (why : Rejection)
  deriving Inhabited

inductive Item (α : Type) where
  | step (s : Step α)
  | race (gate : Option Target) (steps : List (Step α))
  deriving Inhabited

inductive StepAnswer (α : Type) where
  | done
  | flag (b : Bool)
  | failed (f : Failure)
  | accepted (n : Nat) (stoppedBy : Option Failure)
  | messages (ms : List (Message α))
  | tally (t : Tally)
  | text (s : String)
  | rejected (why : Rejection)
  deriving Inhabited

/-- What can be seen of a coordinator at one moment. -/
structure Reading where
  phase : Phase
  isOpen : Bool
  items : UInt64
  held : Option Watermark
  timerActive : Bool
  now : Int64
  deriving DecidableEq, Inhabited

inductive ItemAnswer (α : Type) where
  | step (answer : StepAnswer α)
  | race (answers : List (StepAnswer α)) (waited : List Nat) (atGate : Option Reading)
      (journalAtGate : Journal α)
  deriving Inhabited

/-- The answer to an item, the reading after it, and the journal entries it added. -/
structure Outcome (α : Type) where
  answer : ItemAnswer α
  reading : Option Reading
  entries : Journal α
  deriving Inhabited

/-- A step that has been started: calls under way, or an answer already. -/
inductive Started (α : Type) where
  | calls (activity : Activity α)
  | answered (answer : StepAnswer α)
  deriving Inhabited

namespace Reply

variable {α : Type}

def answer : Reply → StepAnswer α
  | done => .done
  | flag b => .flag b
  | failed f => .failed f

def failure? : Reply → Option Failure
  | failed f => some f
  | _ => none

end Reply

namespace Activity

variable {α : Type}

def answer (a : Activity α) : StepAnswer α :=
  match a.purpose with
  | .single => a.reply.answer
  | .series => .accepted a.succeeded a.reply.failure?
  | .ticks => .done

end Activity

namespace Started

variable {α : Type}

def activity? : Started α → Option (Activity α)
  | calls a => some a
  | answered _ => none

def isWaiting (s : Started α) : Bool := s.activity?.any fun a ↦ !a.isOver

def answer : Started α → StepAnswer α
  | calls a => a.answer
  | answered x => x

/-- Puts the activities, as far as they have come, back in their places. -/
def update : List (Started α) → List (Activity α) → List (Started α)
  | calls _ :: rest, a :: as => calls a :: update rest as
  | answered x :: rest, as => answered x :: update rest as
  | rest, _ => rest

end Started

namespace Bench

variable {α : Type}

def reading? (b : Bench α) : Option Reading :=
  if b.abandoned then none
  else
    let c := b.coordinator
    some ⟨c.phase, c.slot.isOpen, c.slot.items, c.slot.held, c.isTimerActive, c.timer.now⟩

def answered (b : Bench α) (answer : StepAnswer α) : Bench α × Started α := (b, .answered answer)

def unlessDropped (b : Bench α) (s : Started α) : Bench α × Started α :=
  if b.abandoned then b.answered (.rejected .dropped) else (b, s)

/-- How many callbacks a timer moved by hand runs. Those of a dropped coordinator do nothing. -/
def callbacks (b : Bench α) (cancelledToo : Bool) : Nat :=
  if b.abandoned then 0
  else if cancelledToo then b.timer.registrations.length
  else b.timer.activeCount

def advanceClock (b : Bench α) (millis : Int) : Bench α :=
  if b.isVirtual then b.setNow (b.now + millis.toNat)
  else b.setTimer (b.timer.advance (Int64.ofInt millis))

/-- Starts a step: knobs turn at once, calls are polled for the first time. -/
def start (b : Bench α) : Step α → Bench α × Started α
  | .call request => b.unlessDropped (.calls { purpose := .single, todo := [request] })
  | .submitAll items =>
    b.unlessDropped (.calls { purpose := .series, todo := items.map Request.submit })
  | .fire cancelledToo =>
    if b.isVirtual then b.answered (.rejected .needsManualTimer)
    else (b, .calls { purpose := .ticks, todo := List.replicate (b.callbacks cancelledToo) .tick })
  | .advance millis => (b.advanceClock millis).answered .done
  | .setTime millis =>
    if b.isVirtual then b.answered (.rejected .needsManualTimer)
    else (b.setTimer { b.timer with now := millis }).answered .done
  | .inject target fault => (b.inject target fault).answered .done
  | .clearFaults => b.clearFaults.answered .done
  | .receive =>
    match b.rig.recorder.receiveAll? with
    | none => b.answered (.rejected .noReceiver)
    | some (messages, recorder) => (b.setRecorder recorder).answered (.messages messages)
  | .dropReceiver => (b.setRecorder b.rig.recorder.dropReceiver).answered .done
  | .abandon => b.abandon.answered .done
  | .tally => b.unlessDropped (.answered (.tally b.coordinator.tally))
  | .text => b.unlessDropped (.answered (.text b.coordinator.text))
  | .meaningless why => b.answered (.rejected why)

def firstPoll (b : Bench α) : Started α → Bench α × Started α
  | .calls a =>
    let (b, a) := b.pollActivity a
    (b, .calls a)
  | .answered x => (b, .answered x)

/-- Starts the steps of a race, each polled as far as it gets before the next one starts. -/
def startAll (b : Bench α) : List (Step α) → Bench α × List (Started α)
  | [] => (b, [])
  | s :: rest =>
    let (b, started) := b.start s
    let (b, started) := b.firstPoll started
    let (b, rest) := b.startAll rest
    (b, started :: rest)

/-- Continues all that is unfinished until it is over. -/
def finish (b : Bench α) (started : List (Started α)) : Bench α × List (Started α) :=
  let (b, as) := b.drive (started.filterMap Started.activity?)
  (b, Started.update started as)

def waitingPlaces (started : List (Started α)) : List Nat :=
  (started.zipIdx.filter fun p ↦ p.1.isWaiting).map fun p ↦ p.2

def outcome (before b : Bench α) (answer : ItemAnswer α) : Outcome α :=
  ⟨answer, b.reading?, b.journal.drop before.journal.length⟩

def run (b : Bench α) : Item α → Bench α × Outcome α
  | .step s =>
    let (after, started) := b.start s
    let (after, started) := after.finish [started]
    (after, outcome b after (.step ((started.map Started.answer).headD .done)))
  | .race gate steps =>
    let (atGate, started) := { b with gate := gate }.startAll steps
    let waited := waitingPlaces started
    let (after, started) := { atGate with gate := none }.finish started
    (after, outcome atGate after (.race (started.map Started.answer) waited atGate.reading?
      (atGate.journal.drop b.journal.length)))

def runAll (b : Bench α) : List (Item α) → Bench α × List (Outcome α)
  | [] => (b, [])
  | item :: rest =>
    let (b, outcome) := b.run item
    let (b, outcomes) := b.runAll rest
    (b, outcome :: outcomes)

end Bench

end Bundling
