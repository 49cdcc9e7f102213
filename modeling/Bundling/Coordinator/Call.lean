import Bundling.Coordinator.Basic

/-!
Calls on a coordinator. A call runs in uninterrupted stretches; between two stretches it waits, for
the lock or for a collaborator, and its `Stage` says for what and with what left to do. `begin` is
the stretch from a request to its first wait, `enter` the one that starts when the lock is granted,
and `resume` the one that starts with a collaborator's answer.
-/

set_option autoImplicit false
set_option relaxedAutoImplicit false

namespace Bundling

inductive Request (α : Type) where
  | start
  | submit (item : α)
  | watermark (w : Watermark)
  | barrier (id : UInt64)
  | endInput
  | finish (trigger : Trigger)
  | checkAge
  | tick
  | stop
  | shutdown
  deriving DecidableEq, Inhabited

inductive Reply where
  | done
  | flag (closed : Bool)
  | failed (failure : Failure)
  deriving DecidableEq, Inhabited

/-- A close in progress: what triggered it, and how many items the bundle had. -/
structure Close where
  trigger : Trigger
  items : UInt64
  deriving DecidableEq, Inhabited

/-- A release in progress: the phase it ended, and the failures met so far. -/
structure Release where
  displaced : Phase
  closeFailure : Option Failure
  timerFailure : Option Failure
  deriving DecidableEq, Inhabited

/-- What a call waits for. -/
inductive Stage (α β : Type) where
  | queued
  | opening
  | starting (item : α)
  | processing (item : α)
  | finishing (close : Close)
  | draining (close : Close)
  | emitting (close : Close) (result : β) (rest : List β) (total : Nat)
  | releasing (close : Close) (w : Watermark)
  | forwarding (w : Watermark)
  | queuedToRelease (release : Release)
  | closingUnit (release : Release)
  | ended (reply : Reply)
  deriving DecidableEq, Inhabited

structure Call (α β : Type) where
  request : Request α
  stage : Stage α β
  deriving DecidableEq, Inhabited

/-- What a collaborator can be asked to do. -/
inductive Operation (α β : Type) where
  | openUnit
  | startBundle
  | process (item : α)
  | finishBundle
  | drainResults
  | closeUnit
  | emit (result : β)
  | forward (w : Watermark)
  deriving DecidableEq, Inhabited

namespace Stage

variable {α β : Type}

/-- The collaborator's operation that a call waits for. -/
def operation? : Stage α β → Option (Operation α β)
  | opening => some .openUnit
  | starting _ => some .startBundle
  | processing x => some (.process x)
  | finishing _ => some .finishBundle
  | draining _ => some .drainResults
  | emitting _ r _ _ => some (.emit r)
  | releasing _ w => some (.forward w)
  | forwarding w => some (.forward w)
  | closingUnit _ => some .closeUnit
  | queued | queuedToRelease _ | ended _ => none

def reply? : Stage α β → Option Reply
  | ended r => some r
  | _ => none

def awaitsLock : Stage α β → Bool
  | queued | queuedToRelease _ => true
  | _ => false

end Stage

namespace Coordinator

variable {α β : Type}

def failedOr (f : Option Failure) : Reply :=
  match f with
  | some f => .failed f
  | none => .done

/-- The end of a call that holds the lock. -/
def leave (c : Coordinator) (r : Reply) : Coordinator × Stage α β := (c.unlock, .ended r)

def shutdownFailures (r : Release) (unitFailure : Option Failure) : List String :=
  (r.timerFailure.map fun f ↦ "timer: " ++ f.message).toList ++
    (unitFailure.map fun f ↦ "execution unit: " ++ f.message).toList

/-- The end of a release. The lock is given up first, so the open flag falls outside it. -/
def settleRelease (c : Coordinator) (r : Release) (unitFailure : Option Failure) :
    Coordinator × Stage α β :=
  let c := c.unlock
  let wasOpen := c.slot.isOpen
  let c := { c with slot := c.slot.tryClose.2 }
  let c := if wasOpen then c.note .releasedWhileOpen else c
  match shutdownFailures r unitFailure with
  | [] =>
    (c.note (.operation "shutdown" c.id none none "stopped"
        (some ("previous_phase=" ++ r.displaced.label))),
      .ended (failedOr r.closeFailure))
  | failures => (c, .ended (.failed (r.closeFailure.getD (.shutdown failures))))

/-- The release once the lock is granted: the unit leaves its place before it is closed. -/
def enterRelease (c : Coordinator) (r : Release) : Coordinator × Stage α β :=
  if c.hasUnit then ({ c with hasUnit := false }, .closingUnit r) else c.settleRelease r none

def askToRelease (c : Coordinator) (i : Nat) (r : Release) : Coordinator × Stage α β :=
  let (granted, lock) := c.lock.ask i
  let c := { c with lock := lock }
  if granted then c.enterRelease r else (c, .queuedToRelease r)

/-- Ends the coordinator: the phase first, then the timer, then the unit. A coordinator that has
stopped already is left alone. -/
def beginRelease (c : Coordinator) (i : Nat) (closeFailure : Option Failure) :
    Coordinator × Stage α β :=
  if c.phase = .stopped then (c, .ended (failedOr closeFailure))
  else
    let displaced := c.phase
    let (timerFailure, c) := { c with phase := .stopped }.cancelRegistration
    c.askToRelease i ⟨displaced, closeFailure, timerFailure⟩

/-- What a call does once its close is over, with the lock still held: `.ok true` if it closed a
bundle, `.ok false` if there was nothing to close. -/
def afterClose (c : Coordinator) (i : Nat) (request : Request α) (result : Except Failure Bool) :
    Coordinator × Stage α β :=
  match request, result with
  | .watermark w, .ok _ => (c, .forwarding w)
  | .barrier id, .ok closed => (c.note (.barrierClear id closed)).leave .done
  | .finish _, .ok closed => c.leave (.flag closed)
  | .checkAge, .ok closed => c.leave (.flag closed)
  | .tick, .error f =>
    (((c.note (.problem "bundling_coordinator" "check_bundle_age" f.message
      (some "failure latched until next ingestion call"))).latch f)).leave .done
  | .stop, .error f => ((c.note (.lastCloseFailed f)).unlock).beginRelease i (some f)
  | .stop, .ok _ => c.unlock.beginRelease i none
  | _, .ok _ => c.leave .done
  | _, .error f => c.leave (.failed f)

/-- Starts to close the open bundle, if there is one and the unit is still there. -/
def beginClose (c : Coordinator) (i : Nat) (request : Request α) (trigger : Trigger) :
    Coordinator × Stage α β :=
  if c.hasUnit && c.slot.isOpen then
    ({ c with slot := c.slot.tryClose.2 }, .finishing ⟨trigger, c.slot.items⟩)
  else c.afterClose i request (.ok false)

def closeNotice (c : Coordinator) (close : Close) (results : Nat) : Notice :=
  if close.trigger.isForced then
    .operation "finish_bundle" c.id (some close.trigger.name) (some close.items) "closed"
      (some ("result_count=" ++ Decimal.text results))
  else .bundleFinished close.trigger close.items results

/-- The close once all results are out: counters and clock are reset, and a held watermark is let
go. -/
def settleClose (c : Coordinator) (i : Nat) (request : Request α) (close : Close) (total : Nat) :
    Coordinator × Stage α β :=
  let slot := c.slot.reset c.timer.now
  let c := { c with
    slot := slot.release.2
    tally := c.tally.bundleFinished close.trigger close.items (UInt64.ofNat total) }
  let c := c.note (c.closeNotice close total)
  match slot.release.1 with
  | some w => (c, .releasing close w)
  | none => c.afterClose i request (.ok true)

/-- The next result to emit, or the end of the close. -/
def emitNext (c : Coordinator) (i : Nat) (request : Request α) (close : Close) (total : Nat) :
    List β → Coordinator × Stage α β
  | [] => c.settleClose i request close total
  | r :: rest => (c, .emitting close r rest total)

def forwarded (c : Coordinator) (w : Watermark) : Coordinator :=
  { c with tally := c.tally.watermarkForwarded }.note (.watermarkForwarded w)

/-- Holds a watermark behind the open bundle. -/
def holdBack (c : Coordinator) (w : Watermark) : Coordinator :=
  let superseded := (c.slot.hold w).1
  { c with
    slot := (c.slot.hold w).2
    tally := c.tally.watermarkHeld superseded.isSome }.note (.watermarkHeld w superseded)

/-- The stretch that starts when the lock is granted. -/
def enter (c : Coordinator) (i : Nat) (request : Request α) : Coordinator × Stage α β :=
  match request with
  | .start =>
    if c.phase ≠ .created then c.leave (.failed (.refused (.cannotStart c.phase)))
    else if !c.hasUnit then c.leave (.failed (.refused .nothingToOpen))
    else (c, .opening)
  | .submit x =>
    match c.running "submit" with
    | .error f => c.leave (.failed f)
    | .ok _ =>
      if !c.hasUnit then c.leave (.failed (.refused (.released "submit")))
      else if c.slot.isOpen then (c, .processing x)
      else ({ c with slot := c.slot.tryOpen.2 }, .starting x)
  | .watermark w =>
    match c.running "process watermark" with
    | .error f => c.leave (.failed f)
    | .ok _ =>
      if !c.hasUnit then c.leave (.failed (.refused (.released "process watermark")))
      else if w.isTerminal then c.beginClose i request .terminalWatermark
      else if c.slot.isOpen then (c.holdBack w).leave .done
      else (c, .forwarding w)
  | .barrier _ => c.beginClose i request .barrier
  | .endInput => c.beginClose i request .endOfInput
  | .finish trigger => c.beginClose i request trigger
  | .checkAge | .tick =>
    if c.phase = .running ∧ c.isExpired = true then c.beginClose i request .bundleAge
    else c.afterClose i request (.ok false)
  | .stop => c.beginClose i request .stop
  | .shutdown => c.leave .done

def ask (c : Coordinator) (i : Nat) (request : Request α) : Coordinator × Stage α β :=
  let (granted, lock) := c.lock.ask i
  let c := { c with lock := lock }
  if granted then c.enter i request else (c, .queued)

/-- The checks that a call passes before it asks for the lock; its reply if it ends there. -/
def early (c : Coordinator) (request : Request α) : Option Reply :=
  let turnedAway (r : Except Failure Unit) : Option Reply :=
    match r with
    | .ok _ => none
    | .error f => some (.failed f)
  let idle := c.phase ≠ .running || !c.slot.isOpen || !c.isExpired
  match request with
  | .submit _ => turnedAway (c.running "submit")
  | .watermark _ => turnedAway (c.running "process watermark")
  | .barrier _ | .endInput => turnedAway c.healthy
  | .checkAge => if idle then some (.flag false) else none
  | .tick => if idle then some .done else none
  | .stop => if c.phase = .stopped then some .done else none
  | .start | .finish _ | .shutdown => none

/-- The stretch from a request to its first wait. -/
def begin (c : Coordinator) (i : Nat) (request : Request α) : Coordinator × Stage α β :=
  match c.early request with
  | some reply => (c, .ended reply)
  | none =>
    match request with
    | .stop => { c with phase := .stopping }.ask i request
    | .shutdown => c.beginRelease i none
    | _ => c.ask i request

/-- The unit is open: the clock starts, the age check is registered, and the coordinator runs. -/
def opened (c : Coordinator) : Coordinator × Stage α β :=
  match { c with slot := c.slot.reset c.timer.now }.schedule with
  | (.error f, c) => c.leave (.failed f)
  | (.ok _, c) =>
    ({ c with phase := .running }.note (.operation "start" c.id none none "running"
      (some ("max_items=" ++ Decimal.text c.policy.maxItems.toNat ++
        " max_age_ms=" ++ Decimal.text c.policy.maxAgeMillis.toInt ++
        " check_period_ms=" ++ Decimal.text c.policy.checkPeriod.toMillis)))).leave .done

/-- The unit has taken an item; a full bundle is closed at once. -/
def accepted (c : Coordinator) (i : Nat) (request : Request α) : Coordinator × Stage α β :=
  let (total, slot) := c.slot.count
  let c := { c with slot := slot, tally := c.tally.itemProcessed }
  if c.policy.maxItems ≤ total then c.beginClose i request .itemCount else c.leave .done

/-- The stretch that starts with a collaborator's answer. Only a drain answers with results; any
other list of results is ignored. -/
def resume (c : Coordinator) (i : Nat) (request : Request α) (stage : Stage α β)
    (answer : Except Failure (List β)) : Coordinator × Stage α β :=
  match stage, answer with
  | .opening, .error f =>
    (c.note (.problem "bundling_coordinator" "start" f.message
      (some "execution unit failed to open"))).leave (.failed f)
  | .opening, .ok _ => c.opened
  | .starting _, .error f => { c with slot := c.slot.tryClose.2 }.leave (.failed f)
  | .starting x, .ok _ =>
    ({ c with tally := c.tally.bundleStarted }.note .bundleStarted, .processing x)
  | .processing _, .error f => c.leave (.failed f)
  | .processing _, .ok _ => c.accepted i request
  | .finishing _, .error f => c.afterClose i request (.error f)
  | .finishing close, .ok _ => (c, .draining close)
  | .draining _, .error f => c.afterClose i request (.error f)
  | .draining close, .ok results => c.emitNext i request close results.length results
  | .emitting _ _ _ _, .error f => c.afterClose i request (.error f)
  | .emitting close _ rest total, .ok _ => c.emitNext i request close total rest
  | .releasing _ _, .error f => c.afterClose i request (.error f)
  | .releasing _ w, .ok _ => (c.forwarded w).afterClose i request (.ok true)
  | .forwarding _, .error f => c.leave (.failed f)
  | .forwarding w, .ok _ => (c.forwarded w).leave .done
  | .closingUnit r, .error f =>
    (c.note (.problem "bundling_coordinator" "close_execution_unit" f.message none)).settleRelease r
      (some f)
  | .closingUnit r, .ok _ => c.settleRelease r none
  | .queued, _ => (c, .queued)
  | .queuedToRelease r, _ => (c, .queuedToRelease r)
  | .ended r, _ => (c, .ended r)

end Coordinator

end Bundling
