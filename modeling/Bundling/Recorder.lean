import Bundling.Channel
import Bundling.Coordinator.Call
import Bundling.Journal

/-!
A recording execution unit and sink: every operation that succeeds is written to one journal, and
every item processed becomes a result of its bundle. Operations can be made to fail for good; a
failing operation does nothing else. A recorder may send its results into a channel instead of the
journal.
-/

set_option autoImplicit false
set_option relaxedAutoImplicit false

namespace Bundling

/-- The collaborators' operations by kind. -/
inductive Target where
  | openUnit
  | startBundle
  | process
  | finishBundle
  | drainResults
  | closeUnit
  | emit
  | forward
  | schedule
  | cancel
  deriving DecidableEq, Inhabited, BEq

namespace Target

def name : Target → String
  | openUnit => "open"
  | startBundle => "start_bundle"
  | process => "process"
  | finishBundle => "finish_bundle"
  | drainResults => "drain_results"
  | closeUnit => "close"
  | emit => "emit"
  | forward => "forward_watermark"
  | schedule => "schedule"
  | cancel => "cancel"

def all : List Target :=
  [openUnit, startBundle, process, finishBundle, drainResults, closeUnit, emit, forward, schedule,
    cancel]

def ofName? (s : String) : Option Target := all.find? fun t ↦ t.name == s

/-- How a planned fault of this operation is reported. -/
def failure (reason : String) : Target → Failure
  | emit | forward => .sink reason
  | schedule | cancel => .timer reason
  | t => .unit t.name reason

/-- How a recorder reports that the operation fails for good. -/
def lastingFailure : Target → Failure
  | emit => .sink "injected emit failure"
  | forward => .sink "injected watermark failure"
  | t => t.failure "injected failure"

end Target

namespace Operation

variable {α β : Type}

def target : Operation α β → Target
  | openUnit => .openUnit
  | startBundle => .startBundle
  | process _ => .process
  | finishBundle => .finishBundle
  | drainResults => .drainResults
  | closeUnit => .closeUnit
  | emit _ => .emit
  | forward _ => .forward

end Operation

structure Recorder (α : Type) where
  journal : Journal α := []
  /-- Results of items processed since the last drain. -/
  pending : List α := []
  failing : List Target := []
  /-- How many results each item becomes. -/
  copies : Nat := 1
  channel : Option (Channel α) := none
  deriving Inhabited

namespace Recorder

variable {α : Type}

def note (r : Recorder α) (e : Entry α) : Recorder α := { r with journal := r.journal ++ [e] }

def refusal? (r : Recorder α) (t : Target) : Option Failure :=
  if r.failing.contains t then some t.lastingFailure else none

/-- Puts a message into the channel; no answer while the channel is full. -/
def send (r : Recorder α) (channel : Channel α) (m : Message α) :
    Option (Except Failure (List α) × Recorder α) :=
  match channel.send m with
  | none => none
  | some (.error f) => some (.error f, r)
  | some (.ok channel) => some (.ok [], { r with channel := some channel })

/-- A successful operation: its answer, and what it leaves behind. -/
def carryOut (r : Recorder α) : Operation α α → List α × Recorder α
  | .openUnit => ([], r.note .opened)
  | .startBundle => ([], r.note .started)
  | .process x => ([], { r.note (.processed x) with pending := r.pending ++ [x] })
  | .finishBundle => ([], r.note .finished)
  | .drainResults => (r.pending.flatMap (List.replicate r.copies), { r with pending := [] })
  | .closeUnit => ([], r.note .closed)
  | .emit x => ([], r.note (.emitted x))
  | .forward w => ([], r.note (.forwarded w))

/-- An operation without a channel: a lasting failure, or success. -/
def record (r : Recorder α) (op : Operation α α) : Except Failure (List α) × Recorder α :=
  match r.refusal? op.target with
  | some f => (.error f, r)
  | none => (.ok (r.carryOut op).1, (r.carryOut op).2)

/-- Performs an operation; no answer while it has to wait for room in the channel. -/
def perform (r : Recorder α) (op : Operation α α) :
    Option (Except Failure (List α) × Recorder α) :=
  match r.channel, op with
  | some channel, .emit x => r.send channel (.result x)
  | some channel, .forward w => r.send channel (.watermark w)
  | _, _ => some (r.record op)

/-- All messages waiting in the channel, taken out, if there is a receiver to take them. -/
def receiveAll? (r : Recorder α) : Option (List (Message α) × Recorder α) :=
  match r.channel with
  | none => none
  | some channel =>
    if channel.hasReceiver then
      some (channel.waiting, { r with channel := some { channel with waiting := [] } })
    else none

def dropReceiver (r : Recorder α) : Recorder α :=
  { r with channel := r.channel.map Channel.dropReceiver }

end Recorder

end Bundling
