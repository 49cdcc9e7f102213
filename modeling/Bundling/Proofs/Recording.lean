import Bundling.Coordinator.Rig
import Bundling.Proofs.Run

/-!
What a recording unit and sink make of a history. Every successful answer but that of a drain leaves
an entry in the journal, and a drain hands over the items taken since the last one. A run of a rig
is a run of its world in which the recorder gives the answers, so its journal can be read off its
history.
-/

set_option autoImplicit false
set_option relaxedAutoImplicit false

namespace Bundling

namespace Operation

variable {α : Type}

/-- The entry that a success leaves in the journal. -/
def entryOf : Operation α α → Option (Entry α)
  | openUnit => some .opened
  | startBundle => some .started
  | process x => some (.processed x)
  | finishBundle => some .finished
  | drainResults => none
  | closeUnit => some .closed
  | emit x => some (.emitted x)
  | forward w => some (.forwarded w)

end Operation

namespace Journal

variable {α : Type}

theorem processed_append (j k : Journal α) : processed (j ++ k) = processed j ++ processed k :=
  List.filterMap_append

theorem emitted_append (j k : Journal α) : emitted (j ++ k) = emitted j ++ emitted k :=
  List.filterMap_append

theorem read_append (j new : Journal α) : read (j ++ new) = new.foldl Reading.step (read j) :=
  List.foldl_append

end Journal

namespace History

variable {α : Type}

def entryOf : Event α α → Option (Entry α)
  | .answered _ op (.ok _) => op.entryOf
  | _ => none

/-- The journal of a history. -/
def entries (h : History α α) : Journal α := h.filterMap entryOf

def gather (held : List α) : Event α α → List α
  | .answered _ (.process x) (.ok _) => held ++ [x]
  | .answered _ .drainResults (.ok _) => []
  | _ => held

/-- The items that the unit has taken since it was last drained. -/
def undrained (h : History α α) : List α := h.foldl gather []

/-- Every drain hands over what has been taken since the one before. -/
def Faithful (h : History α α) : Prop :=
  ∀ before i results rest, h = before ++ Event.answered i .drainResults (.ok results) :: rest →
    results = undrained before

def result? : Operation α α → Option α
  | .emit x => some x
  | _ => none

/-- The results among what is due. -/
def results (due : List (Operation α α)) : List α := due.filterMap result?

@[simp] theorem results_nil : results ([] : List (Operation α α)) = [] := rfl

@[simp] theorem results_emit (x : α) (due : List (Operation α α)) :
    results (.emit x :: due) = x :: results due := rfl

@[simp] theorem results_drain : results ([.drainResults] : List (Operation α α)) = [] := rfl

@[simp] theorem results_map_emit (xs : List α) :
    results (xs.map .emit : List (Operation α α)) = xs := by
  induction xs with
  | nil => rfl
  | cons x xs ih => simp [ih]

theorem entries_append (h new : History α α) : entries (h ++ new) = entries h ++ entries new :=
  List.filterMap_append

theorem entries_snoc (h : History α α) (e : Event α α) :
    entries (h ++ [e]) = entries h ++ (entryOf e).toList := by
  rw [entries_append]
  cases he : entryOf e <;> simp [entries, he]

theorem undrained_append (h new : History α α) :
    undrained (h ++ new) = new.foldl gather (undrained h) :=
  List.foldl_append

theorem undrained_snoc (h : History α α) (e : Event α α) :
    undrained (h ++ [e]) = gather (undrained h) e :=
  undrained_append h [e]

theorem faithful_nil : Faithful ([] : History α α) := by
  intro before i results rest h
  simp at h

theorem Faithful.snoc {h : History α α} (hfaithful : Faithful h) {e : Event α α}
    (he : ∀ i results, e = .answered i .drainResults (.ok results) → results = undrained h) :
    Faithful (h ++ [e]) := by
  intro before i results rest heq
  rcases List.eq_nil_or_concat rest with rfl | ⟨rest', last, rfl⟩
  · obtain ⟨rfl, hlast⟩ := List.append_inj' heq rfl
    exact he i results (List.cons.inj hlast).1
  · have hsplit : h ++ [e] =
        (before ++ Event.answered i .drainResults (.ok results) :: rest') ++ [last] := by
      simpa using heq
    exact hfaithful before i results rest' (List.append_inj' hsplit rfl).1

end History

namespace Recorder

variable {α : Type}

open History

/-- The recorder has answered as this history says, one result for each item. -/
structure Records (r : Recorder α) (h : History α α) : Prop where
  copies : r.copies = 1
  channel : r.channel = none
  journal : r.journal = entries h
  pending : r.pending = undrained h
  faithful : Faithful h

theorem records_nil (failing : List Target) : ({ failing := failing } : Recorder α).Records [] :=
  ⟨rfl, rfl, rfl, rfl, faithful_nil⟩

/-- Only answers concern the recorder. -/
theorem Records.quiet {r : Recorder α} {h : History α α} (hr : r.Records h) {new : History α α}
    (hnew : ∀ e ∈ new, ∀ i op a, e ≠ .answered i op a) : r.Records (h ++ new) := by
  induction new generalizing h with
  | nil => simpa using hr
  | cons e new ih =>
    have hquiet : r.Records (h ++ [e]) := by
      have he := hnew e List.mem_cons_self
      refine ⟨hr.copies, hr.channel, ?_, ?_, hr.faithful.snoc fun i results heq ↦
        absurd heq (he i _ _)⟩
      · rw [entries_append, hr.journal]
        cases e with
        | answered i op a => exact absurd rfl (he i op a)
        | _ => simp [entries, entryOf]
      · rw [undrained_append, hr.pending]
        cases e with
        | answered i op a => exact absurd rfl (he i op a)
        | _ => rfl
    rw [List.append_cons]
    exact ih hquiet fun e' he' ↦ hnew e' (List.mem_cons_of_mem e he')

theorem Records.fails {r : Recorder α} {h : History α α} (hr : r.Records h) (i : Nat)
    (op : Operation α α) (f : Failure) : r.Records (h ++ [Event.answered i op (.error f)]) := by
  refine ⟨hr.copies, hr.channel, ?_, ?_, hr.faithful.snoc fun _ _ heq ↦ by cases heq⟩
  · rw [entries_append, hr.journal]
    simp [entries, entryOf]
  · rw [undrained_append, hr.pending]
    cases op <;> rfl

theorem Records.succeeds {r : Recorder α} {h : History α α} (hr : r.Records h) (i : Nat)
    (op : Operation α α) :
    (r.carryOut op).2.Records
      (h ++ [Event.answered i op (op.outcome (.ok (r.carryOut op).1))]) := by
  have hsingle (xs : List α) : xs.flatMap (List.replicate 1) = xs := List.flatMap_singleton' xs
  refine ⟨?_, ?_, ?_, ?_, hr.faithful.snoc fun j results heq ↦ ?_⟩
  · cases op <;> exact hr.copies
  · cases op <;> exact hr.channel
  · rw [entries_append, ← hr.journal]
    cases op <;> simp [carryOut, note, entries, entryOf, Operation.entryOf, Operation.outcome]
  · rw [undrained_append, ← hr.pending]
    cases op <;> rfl
  · cases op with
    | drainResults =>
      cases heq
      simp only [carryOut, hr.copies, hsingle]
      exact hr.pending
    | _ => cases heq

theorem Records.perform {r r' : Recorder α} {h : History α α} (hr : r.Records h) (i : Nat)
    {op : Operation α α} {a : Except Failure (List α)} (ha : r.perform op = some (a, r')) :
    r'.Records (h ++ [Event.answered i op (op.outcome a)]) := by
  have hrecord : r.perform op = some (r.record op) := by
    unfold Recorder.perform
    rw [hr.channel]
  rw [hrecord, Option.some.injEq] at ha
  unfold record at ha
  split at ha
  · cases ha
    cases op <;> exact hr.fails i _ _
  · cases ha
    exact hr.succeeds i op

end Recorder

namespace Rig

variable {α : Type}

/-- A coordinator on which no call has been made, with a recorder that refuses some operations for
good. -/
def created (id : String) (checked : Checked) (timer : Timer) (failing : List Target) : Rig α :=
  ⟨.created id checked timer, { failing := failing }⟩

/-- A coordinator with standard limits, a manual timer and a recorder that refuses nothing. -/
def plain : Rig Nat :=
  created "plain" (Limits.check {}) { kind := .manual false, now := 0 } []

/-- What a move of the rig is for its world. -/
def worldMoves (r : Rig α) : Move α → List (Bundling.Move α α)
  | .issue q => [.issue q]
  | .clock now => [.clock now]
  | .proceed i fault =>
    match r.world.stage? i with
    | none => []
    | some stage =>
      match stage.operation? with
      | some op => ((r.answer op fault).map fun a ↦ .proceed i a.1).toList
      | none =>
        if stage.awaitsLock && r.world.holdsLock i then [.proceed i (.ok [])] else []

def events (r : Rig α) (m : Move α) : History α α := r.world.trace (r.worldMoves m)

/-- The history of a run. -/
def trace (r : Rig α) : List (Move α) → History α α
  | [] => []
  | m :: moves => r.events m ++ (r.step m).trace moves

/-- A call of the rig has to wait, or a collaborator answers it, or the lock has come to it. -/
theorem proceed_cases (r : Rig α) (i : Nat) (fault : Option Failure) :
    (r.worldMoves (.proceed i fault) = [] ∧ r.step (.proceed i fault) = r) ∨
      (∃ call op a recorder, r.world.calls[i]? = some call ∧ call.stage.operation? = some op ∧
        r.answer op fault = some (a, recorder) ∧
        r.worldMoves (.proceed i fault) = [.proceed i a] ∧
        r.step (.proceed i fault) = ⟨r.world.proceed i a, recorder⟩) ∨
      ∃ call, r.world.calls[i]? = some call ∧ call.stage.operation? = none ∧
        r.worldMoves (.proceed i fault) = [.proceed i (.ok [])] ∧
        r.step (.proceed i fault) = { r with world := r.world.proceed i (.ok []) } := by
  have hstep : r.step (.proceed i fault) = (r.proceed? i fault).getD r := rfl
  rw [hstep]
  cases hcall : r.world.calls[i]? with
  | none => exact .inl (by simp [worldMoves, proceed?, World.stage?, hcall])
  | some call =>
    have hstage := World.stage?_of_call hcall
    cases hop : call.stage.operation? with
    | none =>
      by_cases hgo : (call.stage.awaitsLock && r.world.holdsLock i) = true
      · refine .inr (.inr ⟨call, rfl, hop, ?_, ?_⟩)
        · simp only [worldMoves, hstage, hop, hgo, if_true]
        · simp only [proceed?, hstage, hop, hgo, if_true, Option.getD_some]
      · exact .inl (by simp [worldMoves, proceed?, hstage, hop, hgo])
    | some op =>
      cases hanswer : r.answer op fault with
      | none => exact .inl (by simp [worldMoves, proceed?, hstage, hop, hanswer])
      | some a =>
        refine .inr (.inl ⟨call, op, a.1, a.2, rfl, hop, hanswer, ?_, ?_⟩)
        · simp [worldMoves, hstage, hop, hanswer]
        · simp [proceed?, hstage, hop, hanswer]

/-- A move of the rig is at most one move of its world. -/
theorem worldMoves_cases (r : Rig α) (m : Move α) :
    r.worldMoves m = [] ∨ ∃ m', r.worldMoves m = [m'] := by
  cases m with
  | issue q => exact .inr ⟨_, rfl⟩
  | clock now => exact .inr ⟨_, rfl⟩
  | proceed i fault =>
    rcases r.proceed_cases i fault with ⟨hmoves, -⟩ | ⟨_, _, _, _, _, _, _, hmoves, -⟩ |
      ⟨_, _, _, hmoves, -⟩
    · exact .inl hmoves
    · exact .inr ⟨_, hmoves⟩
    · exact .inr ⟨_, hmoves⟩

theorem world_step (r : Rig α) (m : Move α) :
    (r.step m).world = r.world.run (r.worldMoves m) := by
  cases m with
  | issue q => rfl
  | clock now => rfl
  | proceed i fault =>
    rcases r.proceed_cases i fault with ⟨hmoves, hstep⟩ | ⟨_, _, _, _, _, _, _, hmoves, hstep⟩ |
      ⟨_, _, _, hmoves, hstep⟩ <;> rw [hmoves, hstep] <;> rfl

theorem run_append (r : Rig α) (moves rest : List (Move α)) :
    r.run (moves ++ rest) = (r.run moves).run rest :=
  List.foldl_append

theorem trace_append (r : Rig α) (moves rest : List (Move α)) :
    r.trace (moves ++ rest) = r.trace moves ++ (r.run moves).trace rest := by
  induction moves generalizing r with
  | nil => rfl
  | cons m moves ih =>
    change r.events m ++ (r.step m).trace (moves ++ rest) =
      (r.events m ++ (r.step m).trace moves) ++ ((r.step m).run moves).trace rest
    rw [ih, List.append_assoc]

theorem trace_snoc (r : Rig α) (moves : List (Move α)) (m : Move α) :
    r.trace (moves ++ [m]) = r.trace moves ++ (r.run moves).events m := by
  rw [trace_append]
  change _ ++ ((r.run moves).events m ++ []) = _
  rw [List.append_nil]

theorem run_snoc (r : Rig α) (moves : List (Move α)) (m : Move α) :
    r.run (moves ++ [m]) = (r.run moves).step m := by
  simp [run]

/-- Every run of a rig is a run of its world. -/
theorem exists_world_run (r : Rig α) (moves : List (Move α)) :
    ∃ below, (r.run moves).world = r.world.run below ∧ r.trace moves = r.world.trace below := by
  induction moves generalizing r with
  | nil => exact ⟨[], rfl, rfl⟩
  | cons m moves ih =>
    obtain ⟨below, hrun, htrace⟩ := ih (r.step m)
    refine ⟨r.worldMoves m ++ below, ?_, ?_⟩
    · rw [World.run_append, ← world_step]
      exact hrun
    · rw [World.trace_append, ← world_step, ← htrace]
      rfl

theorem reaches_run {r : Rig α} (h : r.world.Orderly) (moves : List (Move α)) :
    World.Reaches r.world (r.run moves).world (r.trace moves) := by
  obtain ⟨below, hrun, htrace⟩ := r.exists_world_run moves
  rw [hrun, htrace]
  exact World.reaches_run h below

theorem reaches (id : String) (checked : Checked) (timer : Timer) (failing : List Target)
    (moves : List (Move α)) :
    World.Reaches (World.created id checked timer)
      ((created id checked timer failing).run moves).world
      ((created id checked timer failing).trace moves) :=
  reaches_run (r := created id checked timer failing)
    (World.orderly_created id checked timer) moves

/-- A move brings one answer, or none. -/
theorem events_cases (r : Rig α) (m : Move α) :
    ((∀ e ∈ r.events m, ∀ i op a, e ≠ .answered i op a) ∧ (r.step m).recorder = r.recorder) ∨
      ∃ i op fault a rest, r.answer op fault = some (a, (r.step m).recorder) ∧
        r.events m = Event.answered i op (op.outcome a) :: rest ∧
        ∀ e ∈ rest, ∀ i op a, e ≠ .answered i op a := by
  have hreached (i : Nat) (q : Request α) (s : Stage α α) :
      ∀ e ∈ Event.reached i q s, ∀ j op a, e ≠ .answered j op a := by
    cases s <;> simp [Event.reached, Stage.operation?, Stage.reply?]
  cases m with
  | issue q =>
    refine .inl ⟨fun e he ↦ ?_, rfl⟩
    simp only [events, worldMoves, World.trace, World.events, List.append_nil, List.mem_cons] at he
    rcases he with rfl | he
    · simp
    · exact hreached _ _ _ e he
  | clock now => exact .inl ⟨by simp [events, worldMoves, World.trace, World.events], rfl⟩
  | proceed i fault =>
    unfold events
    rcases r.proceed_cases i fault with ⟨hmoves, hstep⟩ |
      ⟨call, op, a, recorder, hcall, hop, hanswer, hmoves, hstep⟩ |
      ⟨call, hcall, hop, hmoves, hstep⟩ <;> rw [hmoves, hstep]
    · exact .inl ⟨by simp [World.trace], rfl⟩
    · refine .inr ⟨i, op, fault, a, _, hanswer, ?_, hreached i call.request
        (r.world.stretch i call a).2⟩
      simp [World.trace, World.events, hcall, World.canRun, hop, Event.left]
    · refine .inl ⟨fun e he ↦ ?_, rfl⟩
      simp only [World.trace, World.events, hcall, List.append_nil] at he
      split at he
      · rw [Event.left, hop] at he
        exact hreached _ _ _ e he
      · cases he

/-- A move of the rig keeps its recorder in step with its history. -/
theorem records_step {r : Rig α} {h : History α α} (hr : r.recorder.Records h) (m : Move α) :
    (r.step m).recorder.Records (h ++ r.events m) := by
  rcases r.events_cases m with ⟨hquiet, hsame⟩ | ⟨i, op, fault, a, rest, hanswer, hevents, hrest⟩
  · rw [hsame]
    exact hr.quiet hquiet
  · have hanswered : (r.step m).recorder.Records (h ++ [Event.answered i op (op.outcome a)]) := by
      cases fault with
      | none => exact hr.perform i hanswer
      | some f =>
        obtain ⟨rfl, hsame⟩ := Prod.mk.inj (Option.some.inj hanswer)
        rw [← hsame]
        cases op <;> exact hr.fails i _ _
    rw [hevents, List.append_cons]
    exact hanswered.quiet hrest

/-- The journal of a run is the one of its history, and every drain is faithful. -/
theorem records_run (id : String) (checked : Checked) (timer : Timer) (failing : List Target)
    (moves : List (Move α)) :
    ((created id checked timer failing).run moves).recorder.Records
      ((created id checked timer failing).trace moves) := by
  have hrun (moves : List (Move α)) : ∀ (r : Rig α) (h : History α α), r.recorder.Records h →
      (r.run moves).recorder.Records (h ++ r.trace moves) := by
    induction moves with
    | nil =>
      intro r h hr
      simpa [trace, run] using hr
    | cons m moves ih =>
      intro r h hr
      have hnext := ih (r.step m) (h ++ r.events m) (records_step hr m)
      rw [List.append_assoc] at hnext
      exact hnext
  simpa using hrun moves (created id checked timer failing) [] (Recorder.records_nil failing)

end Rig

end Bundling
