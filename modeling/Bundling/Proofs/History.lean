import Bundling.Coordinator.World
import Bundling.Proofs.Turn

/-!
The history of a run: which calls were made, what they asked of the collaborators, what the
collaborators answered, and what the calls replied, in the order in which it happened. A move of a
world is at most two advances: a call joins the line for the lock, and the call that holds the lock
has a turn. `Reaches` collects advances and their history; every run is reached in this way.
-/

set_option autoImplicit false
set_option relaxedAutoImplicit false

namespace Bundling

inductive Event (α β : Type) where
  | issued (call : Nat) (request : Request α)
  | asked (call : Nat) (op : Operation α β)
  | answered (call : Nat) (op : Operation α β) (answer : Except Failure (List β))
  | replied (call : Nat) (request : Request α) (reply : Reply)
  deriving Inhabited

abbrev History (α β : Type) := List (Event α β)

namespace Operation

variable {α β : Type}

/-- What an answer says. Only a drain answers with results. -/
def outcome : Operation α β → Except Failure (List β) → Except Failure (List β)
  | drainResults, answer => answer
  | _, .ok _ => .ok []
  | _, .error f => .error f

end Operation

namespace Event

variable {α β : Type}

/-- What a call leaves behind when it goes on from a stage with this answer. -/
def left (i : Nat) (s : Stage α β) (answer : Except Failure (List β)) : History α β :=
  match s.operation? with
  | some op => [.answered i op (op.outcome answer)]
  | none => []

/-- What happens when a call comes to a stage. -/
def reached (i : Nat) (q : Request α) (s : Stage α β) : History α β :=
  match s.operation?, s.reply? with
  | some op, _ => [.asked i op]
  | none, some r => [.replied i q r]
  | none, none => []

/-- A call that is made, or a reply that is given: nothing that a collaborator sees. -/
def IsOuter : Event α β → Prop
  | issued _ _ | replied _ _ _ => True
  | asked _ _ | answered _ _ _ => False

theorem isOuter_of_mem_reached {i : Nat} {q : Request α} {s : Stage α β}
    (hs : s.operation? = none) {e : Event α β} (he : e ∈ reached i q s) : e.IsOuter := by
  unfold reached at he
  rw [hs] at he
  cases hreply : s.reply? with
  | none => simp [hreply] at he
  | some r =>
    simp only [hreply, List.mem_singleton] at he
    rw [he]
    trivial

section Turn

variable {i j : Nat} {q q' : Request α} {s s' : Stage α β} {a : Except Failure (List β)}

theorem left_eq_nil (hs : s.operation? = none) : left j s a = [] := by
  unfold left
  rw [hs]

theorem not_mem_left {e : Event α β} (h : ∀ op answer, e ≠ .answered j op answer) :
    e ∉ left j s a := by
  unfold left
  split <;> simp_all

/-- What a turn adds to a history is about the call that has it. -/
theorem eq_of_replied_mem_turn {r : Reply}
    (h : .replied i q r ∈ left j s a ++ reached j q' s') : i = j ∧ q = q' ∧ s' = .ended r := by
  rcases List.mem_append.mp h with hleft | hreached
  · exact absurd hleft (not_mem_left (by simp))
  · cases s' <;> simp_all [reached, Stage.operation?, Stage.reply?]

theorem eq_of_asked_mem_turn {op : Operation α β}
    (h : .asked i op ∈ left j s a ++ reached j q s') : i = j ∧ s'.operation? = some op := by
  rcases List.mem_append.mp h with hleft | hreached
  · exact absurd hleft (not_mem_left (by simp))
  · cases s' <;> simp_all [reached, Stage.operation?, Stage.reply?]

theorem eq_of_answered_mem_turn {op : Operation α β} {answer : Except Failure (List β)}
    (h : .answered i op answer ∈ left j s a ++ reached j q s') :
    i = j ∧ s.operation? = some op := by
  rcases List.mem_append.mp h with hleft | hreached
  · unfold left at hleft
    split at hleft <;> simp_all
  · cases s' <;> simp_all [reached, Stage.operation?, Stage.reply?]

theorem issued_not_mem_turn : .issued i q ∉ left j s a ++ reached j q' s' := by
  intro h
  rcases List.mem_append.mp h with hleft | hreached
  · exact absurd hleft (not_mem_left (by simp))
  · cases s' <;> simp [reached, Stage.operation?, Stage.reply?] at hreached

end Turn

end Event

namespace World

variable {α β : Type}

/-- A coordinator on which no call has been made. -/
def created (id : String) (checked : Checked) (timer : Timer) : World α β :=
  ⟨.create id checked timer, []⟩

/-- Whether a call can go on from its stage, given an answer where it waits for one. -/
def canRun (w : World α β) (i : Nat) (s : Stage α β) : Bool :=
  s.operation?.isSome || (s.awaitsLock && w.holdsLock i)

def events (w : World α β) : Move α β → History α β
  | .issue q =>
    .issued w.calls.length q ::
      Event.reached w.calls.length q (w.coordinator.begin w.calls.length q : _ × Stage α β).2
  | .proceed i answer =>
    match w.calls[i]? with
    | none => []
    | some call =>
      if w.canRun i call.stage then
        Event.left i call.stage answer ++
          Event.reached i call.request (w.stretch i call answer).2
      else []
  | .clock _ | .timerFaults _ _ => []

/-- The history of a run. -/
def trace (w : World α β) : List (Move α β) → History α β
  | [] => []
  | m :: moves => w.events m ++ (w.step m).trace moves

theorem run_append (w : World α β) (moves rest : List (Move α β)) :
    w.run (moves ++ rest) = (w.run moves).run rest :=
  List.foldl_append

theorem trace_append (w : World α β) (moves rest : List (Move α β)) :
    w.trace (moves ++ rest) = w.trace moves ++ (w.run moves).trace rest := by
  induction moves generalizing w with
  | nil => rfl
  | cons m moves ih =>
    change w.events m ++ (w.step m).trace (moves ++ rest) =
      (w.events m ++ (w.step m).trace moves) ++ ((w.step m).run moves).trace rest
    rw [ih, List.append_assoc]

theorem run_snoc (w : World α β) (moves : List (Move α β)) (m : Move α β) :
    w.run (moves ++ [m]) = (w.run moves).step m :=
  run_append w moves [m]

theorem trace_snoc (w : World α β) (moves : List (Move α β)) (m : Move α β) :
    w.trace (moves ++ [m]) = w.trace moves ++ (w.run moves).events m := by
  rw [trace_append]
  exact congrArg _ (List.append_nil _)

/-! ### Advances -/

/-- The smallest changes that a run is made of, with the events they add. -/
inductive Advance (w : World α β) : World α β → History α β → Prop
  | declines (q : Request α) (r : Reply) (h : Coordinator.Declines q w.coordinator r) :
      Advance w ⟨w.coordinator, w.calls ++ [⟨q, .ended r⟩]⟩
        [.issued w.calls.length q, .replied w.calls.length q r]
  | joins (q : Request α) (d : Coordinator) (s : Stage α β)
      (h : Coordinator.Joins q w.coordinator d s) :
      Advance w ⟨d.inLine w.calls.length, w.calls ++ [⟨q, s⟩]⟩ [Event.issued w.calls.length q]
  | turns (i : Nat) (call : Call α β) (answer : Except Failure (List β))
      (out : Coordinator × Stage α β) (hcall : w.calls[i]? = some call)
      (hlock : w.coordinator.lock.holder = some i)
      (h : Coordinator.Turn i call.request w.coordinator call.stage answer out) :
      Advance w ⟨out.1, w.calls.set i { call with stage := out.2 }⟩
        (Event.left i call.stage answer ++ Event.reached i call.request out.2)
  | retimes (timer : Timer) (hsame : timer.registrations = w.coordinator.timer.registrations) :
      Advance w { w with coordinator := { w.coordinator with timer := timer } } []

/-- The worlds that advances lead to from a first one, with their histories. -/
inductive Reaches (first : World α β) : World α β → History α β → Prop
  | start : Reaches first first []
  | advance {w w' : World α β} {t new : History α β} (h : Reaches first w t)
      (hadvance : Advance w w' new) : Reaches first w' (t ++ new)

end World

end Bundling
