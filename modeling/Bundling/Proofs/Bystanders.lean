import Bundling.Proofs.Turn

/-!
Those who wait make no difference to the call that holds the lock. A stretch of a call reads neither
the line for the lock nor the call's own number, so that it has the same outcome with another line
behind it, and a call that ends gives up whichever lock it holds. Only a stop asks for the lock
again after its close, and so looks at the line.
-/

set_option autoImplicit false
set_option relaxedAutoImplicit false

namespace Bundling

namespace Lock

variable {α β : Type}

/-- The lock once its holder has come to a stage: given up if the call has ended. -/
def after (l : Lock) (s : Stage α β) : Lock := if s.reply?.isSome then l.release else l

theorem after_of_operation (l : Lock) {s : Stage α β} (hs : s.operation?.isSome = true) :
    l.after s = l := by
  cases s <;> first | rfl | cases hs

end Lock

namespace Coordinator

variable {α β : Type} {c : Coordinator} {q : Request α}

def relock (c : Coordinator) (l : Lock) : Coordinator := { c with lock := l }

@[simp] theorem relock_relock (c : Coordinator) (l m : Lock) :
    (c.relock l).relock m = c.relock m := rfl

@[simp] theorem relock_lock (c : Coordinator) : c.relock c.lock = c := rfl

@[simp] theorem early_relock (c : Coordinator) (l : Lock) (q : Request α) :
    (c.relock l).early q = c.early q := rfl

/-- The outcome of a stretch, for a holder of this lock. -/
def relocked (l : Lock) (out : Coordinator × Stage α β) : Coordinator × Stage α β :=
  (out.1.relock (l.after out.2), out.2)

variable (c) (i j : Nat) (l : Lock)

theorem afterClose_relock (hq : q ≠ .stop) (result : Except Failure Bool) :
    ((c.relock l).afterClose j q result : Coordinator × Stage α β) =
      relocked l (c.afterClose i q result) := by
  cases q <;> cases result <;> first | rfl | exact absurd rfl hq

theorem beginClose_relock (hq : q ≠ .stop) (t : Trigger) :
    ((c.relock l).beginClose j q t : Coordinator × Stage α β) =
      relocked l (c.beginClose i q t) := by
  change (if (c.hasUnit && c.slot.isOpen) = true then _ else _) =
    relocked l (if (c.hasUnit && c.slot.isOpen) = true then _ else _)
  split
  · rfl
  · exact afterClose_relock c i j l hq _

theorem emitNext_nil (c : Coordinator) (i : Nat) (q : Request α) (close : Close) (total : Nat) :
    (c.emitNext i q close total [] : Coordinator × Stage α β) =
      match c.slot.held with
      | some w => (c.settled close total, .releasing close w)
      | none => (c.settled close total).afterClose i q (.ok true) := rfl

theorem emitNext_of_held {w : Watermark} (hheld : c.slot.held = some w) (close : Close)
    (total : Nat) : (c.emitNext i q close total [] : Coordinator × Stage α β) =
      (c.settled close total, .releasing close w) := by
  rw [emitNext_nil, hheld]

theorem emitNext_of_not_held (hheld : c.slot.held = none) (close : Close) (total : Nat) :
    (c.emitNext i q close total [] : Coordinator × Stage α β) =
      (c.settled close total).afterClose i q (.ok true) := by
  rw [emitNext_nil, hheld]

theorem emitNext_relock (hq : q ≠ .stop) (close : Close) (total : Nat) (results : List β) :
    (c.relock l).emitNext j q close total results =
      relocked l (c.emitNext i q close total results) := by
  cases results with
  | cons r rest => rfl
  | nil =>
    cases hheld : c.slot.held with
    | some w =>
      rw [emitNext_of_held c i hheld, emitNext_of_held (c.relock l) j hheld]
      rfl
    | none =>
      rw [emitNext_of_not_held c i hheld, emitNext_of_not_held (c.relock l) j hheld]
      exact afterClose_relock (c.settled close total) i j l hq _

theorem accepted_relock (hq : q ≠ .stop) :
    ((c.relock l).accepted j q : Coordinator × Stage α β) = relocked l (c.accepted i q) := by
  change (if c.policy.maxItems ≤ c.slot.items + 1 then
      (c.counted.relock l).beginClose j q .itemCount else (c.counted.relock l).leave .done) =
    relocked l (if c.policy.maxItems ≤ c.slot.items + 1 then
      c.counted.beginClose i q .itemCount else c.counted.leave .done)
  split
  · exact beginClose_relock _ i j l hq _
  · rfl

theorem opened_relock : ((c.relock l).opened : Coordinator × Stage α β) = relocked l c.opened := by
  unfold opened schedule
  dsimp only [relock]
  generalize c.timer.schedule c.policy.checkPeriod.toMillis = outcome
  obtain ⟨result, timer, notices⟩ := outcome
  cases result <;> rfl

/-- The stretch that starts when the lock is granted takes no notice of those behind. -/
theorem enter_relock (hq : q ≠ .stop) :
    ((c.relock l).enter j q : Coordinator × Stage α β) = relocked l (c.enter i q) := by
  have hrunning (doing : String) : (c.relock l).running doing = c.running doing := rfl
  have hclose (t : Trigger) := beginClose_relock (β := β) c i j l hq t
  cases q with
  | stop => exact absurd rfl hq
  | start =>
    change (if c.phase ≠ .created then _ else if !c.hasUnit then _ else _) =
      relocked l (if c.phase ≠ .created then _ else if !c.hasUnit then _ else _)
    split
    · rfl
    · split <;> rfl
  | submit x =>
    unfold enter
    dsimp only
    rw [hrunning]
    cases c.running "submit" with
    | error f => rfl
    | ok _ =>
      change (if !c.hasUnit then _ else if c.slot.isOpen then _ else _) =
        relocked l (if !c.hasUnit then _ else if c.slot.isOpen then _ else _)
      split
      · rfl
      · split <;> rfl
  | watermark w =>
    unfold enter
    dsimp only
    rw [hrunning]
    cases c.running "process watermark" with
    | error f => rfl
    | ok _ =>
      change (if !c.hasUnit then _ else if w.isTerminal then _
        else if c.slot.isOpen then _ else _) =
        relocked l
          (if !c.hasUnit then _ else if w.isTerminal then _ else if c.slot.isOpen then _ else _)
      split
      · rfl
      · split
        · exact hclose _
        · split <;> rfl
  | checkAge | tick =>
    change (if c.phase = .running ∧ c.isExpired = true then _ else _) =
      relocked l (if c.phase = .running ∧ c.isExpired = true then _ else _)
    split
    · exact hclose _
    · exact afterClose_relock c i j l hq _
  | barrier | endInput | finish => exact hclose _
  | shutdown => rfl

theorem settleRelease_relock (r : Release) (f : Option Failure) :
    ((c.relock l).settleRelease r f : Coordinator × Stage α β) =
      relocked l (c.settleRelease r f) := by
  unfold settleRelease
  dsimp only [relock, unlock]
  generalize shutdownFailures r f = failures
  cases failures <;> cases c.slot.isOpen <;> rfl

/-- The stretch that starts with a collaborator's answer takes no notice of those behind. -/
theorem resume_relock (hq : q ≠ .stop) {s : Stage α β} (hs : s.operation?.isSome = true)
    (a : Except Failure (List β)) :
    (c.relock l).resume j q s a = relocked l (c.resume i q s a) := by
  have hafter (d : Coordinator) (result : Except Failure Bool) :=
    afterClose_relock (β := β) d i j l hq result
  have hemit (close : Close) (total : Nat) (results : List β) :=
    emitNext_relock c i j l hq close total results
  cases s with
  | queued | queuedToRelease | ended => cases hs
  | opening =>
    cases a with
    | error f => rfl
    | ok _ => exact opened_relock c l
  | starting x | forwarding w => cases a <;> rfl
  | processing x =>
    cases a with
    | error f => rfl
    | ok _ => exact accepted_relock c i j l hq
  | finishing close =>
    cases a with
    | error f => exact hafter c _
    | ok _ => rfl
  | draining close =>
    cases a with
    | error f => exact hafter c _
    | ok _ => exact hemit _ _ _
  | emitting close r rest total =>
    cases a with
    | error f => exact hafter c _
    | ok _ => exact hemit _ _ _
  | releasing close w =>
    cases a with
    | error f => exact hafter c _
    | ok _ => exact hafter (c.forwarded w) _
  | closingUnit r =>
    cases a with
    | error f =>
      exact settleRelease_relock
        (c.note (.problem "bundling_coordinator" "close_execution_unit" f.message none)) l r _
    | ok _ => exact settleRelease_relock c l r _

end Coordinator

end Bundling
