import Bundling.Proofs.History

/-!
The line for the lock. Every call that has not ended stands in it exactly once, only its head can be
at a collaborator, and calls that are not releasing the unit stand in the order in which they were
made. Hence at most one call waits for a collaborator, and every run is a sequence of advances.
-/

set_option autoImplicit false
set_option relaxedAutoImplicit false

namespace Bundling

namespace Lock

/-- The holder and those behind it. -/
def line (l : Lock) : List Nat := l.holder.toList ++ l.queue

theorem line_of_holder {l : Lock} {i : Nat} (h : l.holder = some i) : l.line = i :: l.queue := by
  simp [line, h]

theorem line_release (l : Lock) : l.release.line = l.queue := by
  unfold release
  split <;> simp_all [line]

theorem line_ask {l : Lock} (i : Nat) (h : l.holder = none → l.queue = []) :
    (l.ask i).2.line = l.line ++ [i] := by
  cases hholder : l.holder with
  | none => simp [ask, line, hholder, h hholder]
  | some j => simp [ask, line, hholder]

theorem queue_of_release_holder {l : Lock} (h : l.release.holder = none) : l.queue = [] := by
  unfold release at h
  split at h
  case h_1 hqueue => exact hqueue
  case h_2 => cases h

theorem queue_release_subset (l : Lock) : l.release.queue ⊆ l.queue := by
  unfold release
  split
  case h_1 => exact List.nil_subset _
  case h_2 j queue hqueue =>
    rw [hqueue]
    exact List.subset_cons_self j queue

theorem ask_holder_ne_none (l : Lock) (i : Nat) : (l.ask i).2.holder ≠ none := by
  unfold ask
  split <;> simp_all

theorem mem_queue_ask {l : Lock} {i j : Nat} (h : j ∈ (l.ask i).2.queue) : j ∈ l.queue ∨ j = i := by
  unfold ask at h
  split at h
  · exact .inl h
  · simpa using h

/-- A holder that gives the lock up and takes it back, with nobody waiting, has it as before. -/
theorem ask_release {l : Lock} {i : Nat} (h : l.holder = some i) (hfree : l.release.holder = none) :
    (l.release.ask i).2 = l := by
  have hqueue := queue_of_release_holder hfree
  obtain ⟨holder, queue⟩ := l
  simp_all [release, ask]

end Lock

namespace Stage

variable {α β : Type}

/-- A stage of a call that releases the unit. -/
def isRelease : Stage α β → Bool
  | queuedToRelease _ | closingUnit _ => true
  | _ => false

theorem reply?_eq_none_of_operation {s : Stage α β} (h : s.operation?.isSome = true) :
    s.reply? = none := by
  cases s <;> first | rfl | cases h

end Stage

namespace Coordinator

variable {α β : Type} {i : Nat} {q : Request α} {c : Coordinator}

/-- A call's stage and its request belong together. -/
def Suits (q : Request α) : Stage α β → Prop
  | .opening => q = .start
  | .starting x | .processing x => q = .submit x
  | .forwarding w => q = .watermark w
  | .queuedToRelease _ | .closingUnit _ => q = .stop ∨ q = .shutdown
  | _ => True

/-- A call that releases the unit has no watermark to accept. -/
theorem Suits.ne_watermark {s : Stage α β} (hsuits : Suits q s) (hs : s.isRelease = true)
    (w : Watermark) : q ≠ .watermark w := by
  rintro rfl
  cases s with
  | queuedToRelease | closingUnit => rcases hsuits with hq | hq <;> cases hq
  | _ => cases hs

theorem Departure.suits {f : Option Failure} {out : Coordinator × Stage α β}
    (h : Departure i f c out) (hq : q = .stop) : Suits q out.2 := by
  cases h with
  | already | settles => trivial
  | waits | takes => exact .inl hq

theorem Parting.suits {result : Except Failure Bool} {out : Coordinator × Stage α β}
    (h : Parting i q c result out) : Suits q out.2 := by
  cases h with
  | forwards _ _ hq => exact hq
  | answers | fails | latches => trivial
  | departs _ _ _ _ hq _ h => exact h.suits hq

theorem Emission.suits {close : Close} {total : Nat} {results : List β}
    {out : Coordinator × Stage α β} (h : Emission i q c close total results out) :
    Suits q out.2 := by
  cases h with
  | more | lets => trivial
  | last _ _ h => exact h.suits

theorem Turn.suits {s : Stage α β} {a : Except Failure (List β)} {out : Coordinator × Stage α β}
    (h : Turn i q c s a out) (hs : Suits q s) : Suits q out.2 := by
  cases h with
  | opens _ hq => exact hq
  | continues _ _ hq | starts _ _ hq => exact hq
  | forwards _ _ hq => exact hq
  | idles _ _ _ _ _ _ h | fillsNone _ _ _ _ _ h => exact h.suits
  | takesUnit | started => exact hs
  | finishesNot _ _ _ h | drainsNot _ _ _ h => exact h.suits
  | emitsNot _ _ _ _ _ _ h => exact h.suits
  | releasesNot _ _ _ _ h | released _ _ _ _ h => exact h.suits
  | drained _ _ _ h => exact h.suits
  | emitted _ _ _ _ _ _ h => exact h.suits
  | _ => trivial

/-- A call that has ended has no more turns. -/
theorem Turn.reply?_eq_none {s : Stage α β} {a : Except Failure (List β)}
    {out : Coordinator × Stage α β} (h : Turn i q c s a out) : s.reply? = none := by
  cases h <;> rfl

/-- What a turn may do to the lock: keep it for as long as the call waits for a collaborator, give
it up for good, or give it up and stand in line again to release the unit. -/
inductive Handover (i : Nat) (l : Lock) : Lock → Stage α β → Prop
  | keeps {s : Stage α β} (hs : s.operation?.isSome = true) : Handover i l l s
  | leaves (r : Reply) : Handover i l l.release (.ended r)
  | rejoins (r : Release) (hlock : l.release.holder ≠ none) :
      Handover i l (l.release.ask i).2 (.queuedToRelease r)

theorem Departure.handover {f : Option Failure} {l : Lock} {out : Coordinator × Stage α β}
    (h : Departure i f c out) (hholder : l.holder = some i) (hc : c.lock = l.release) :
    Handover i l out.1.lock out.2 := by
  cases h with
  | already =>
    rw [hc]
    exact .leaves _
  | waits _ hlock =>
    rw [hc] at hlock
    have hask : (c.ceased.inLine i).lock = (l.release.ask i).2 := by simp [inLine, hc]
    rw [hask]
    exact .rejoins _ hlock
  | takes _ hlock =>
    rw [hc] at hlock
    have hask : (c.ceased.inLine i).lock = l := by
      simp only [inLine, ceased_lock, hc]
      exact Lock.ask_release hholder hlock
    change Handover i l (c.ceased.inLine i).lock _
    rw [hask]
    exact .keeps rfl
  | settles _ _ _ hlock =>
    rw [hc] at hlock
    have hask : (c.ceased.inLine i).lock = l := by
      simp only [inLine, ceased_lock, hc]
      exact Lock.ask_release hholder hlock
    change Handover i l (c.ceased.inLine i).lock.release _
    rw [hask]
    exact .leaves _

theorem Parting.handover {result : Except Failure Bool} {out : Coordinator × Stage α β}
    (h : Parting i q c result out) (hholder : c.lock.holder = some i) :
    Handover i c.lock out.1.lock out.2 := by
  cases h with
  | forwards => exact .keeps rfl
  | answers => exact .leaves _
  | fails => exact .leaves _
  | latches => exact .leaves _
  | departs _ _ _ _ _ _ h => exact h.handover hholder rfl

theorem Turn.handover {s : Stage α β} {a : Except Failure (List β)} {out : Coordinator × Stage α β}
    (h : Turn i q c s a out) (hholder : c.lock.holder = some i) :
    Handover i c.lock out.1.lock out.2 := by
  have hemission {d : Coordinator} {close : Close} {total : Nat} {results : List β}
      (h : Emission i q d close total results out) (hlock : d.lock = c.lock) :
      Handover i c.lock out.1.lock out.2 := by
    rw [← hlock] at hholder ⊢
    cases h with
    | more => exact .keeps rfl
    | lets => exact .keeps rfl
    | last _ _ h => exact h.handover hholder
  cases h with
  | idles _ _ _ _ _ _ h => exact h.handover hholder
  | fillsNone _ _ _ _ _ h => exact h.handover hholder
  | finishesNot _ _ _ h => exact h.handover hholder
  | drainsNot _ _ _ h => exact h.handover hholder
  | drained _ _ _ h => exact hemission h rfl
  | emitsNot _ _ _ _ _ _ h => exact h.handover hholder
  | emitted _ _ _ _ _ _ h => exact hemission h rfl
  | releasesNot _ _ _ _ h => exact h.handover hholder
  | released _ _ _ _ h => exact h.handover hholder
  | refused | passes | holds | findsNoUnit | opensNot | schedulesNot | runs | startsNot
  | processesNot | accepts | forwardsNot | forwarded | settles => exact .leaves _
  | opens | continues | starts | forwards | closes | takesUnit | started | fills | finished =>
    exact .keeps rfl

/-- Before it stands in line, a call may change the phase and give up the registration, and nothing
else. -/
theorem Joins.frame {d : Coordinator} {s : Stage α β} (h : Joins q c d s) :
    ∃ (phase : Phase) (registration : Option Nat) (timer : Timer) (notices : List Notice),
      d = { c with
        phase := phase, registration := registration, timer := timer, notices := notices } := by
  cases h with
  | asks => exact ⟨c.phase, c.registration, c.timer, c.notices, rfl⟩
  | stops => exact ⟨.stopping, c.registration, c.timer, c.notices, rfl⟩
  | shutsDown =>
    obtain ⟨timer, notices, hceased⟩ := ceased_eq c
    exact ⟨.stopped, none, timer, notices, hceased⟩

theorem Joins.lock {d : Coordinator} {s : Stage α β} (h : Joins q c d s) : d.lock = c.lock := by
  obtain ⟨_, _, _, _, hframe⟩ := h.frame
  rw [hframe]

theorem Joins.slot {d : Coordinator} {s : Stage α β} (h : Joins q c d s) : d.slot = c.slot := by
  obtain ⟨_, _, _, _, hframe⟩ := h.frame
  rw [hframe]

theorem Joins.tally {d : Coordinator} {s : Stage α β} (h : Joins q c d s) : d.tally = c.tally := by
  obtain ⟨_, _, _, _, hframe⟩ := h.frame
  rw [hframe]

theorem Joins.policy {d : Coordinator} {s : Stage α β} (h : Joins q c d s) :
    d.policy = c.policy := by
  obtain ⟨_, _, _, _, hframe⟩ := h.frame
  rw [hframe]

theorem Joins.latched {d : Coordinator} {s : Stage α β} (h : Joins q c d s) :
    d.latched = c.latched := by
  obtain ⟨_, _, _, _, hframe⟩ := h.frame
  rw [hframe]

/-- The first call in line has the lock at once, any other leaves it where it is. -/
theorem inLine_holder (c : Coordinator) (i : Nat) :
    (c.inLine i).lock.holder = c.lock.holder.or (some i) := by
  unfold inLine Lock.ask
  cases c.lock.holder <;> rfl

/-- A call that releases the unit does nothing else any more. -/
theorem Turn.isRelease {s : Stage α β} {a : Except Failure (List β)}
    {out : Coordinator × Stage α β} (h : Turn i q c s a out) (hs : s.isRelease = true) :
    out.2.isRelease = true ∨ out.2.reply?.isSome = true := by
  cases h with
  | takesUnit => exact .inl rfl
  | findsNoUnit | settles => exact .inr rfl
  | _ => cases hs

end Coordinator

namespace World

variable {α β : Type}

theorem stage?_mk (c : Coordinator) (calls : List (Call α β)) (i : Nat) :
    (⟨c, calls⟩ : World α β).stage? i = (calls[i]?).map (·.stage) := rfl

theorem stage?_of_call {w : World α β} {i : Nat} {call : Call α β}
    (h : w.calls[i]? = some call) : w.stage? i = some call.stage := by
  simp [stage?, h]

theorem lt_length_of_stage? {w : World α β} {i : Nat} {s : Stage α β}
    (h : w.stage? i = some s) : i < w.calls.length := by
  obtain ⟨call, hcall, -⟩ := Option.map_eq_some_iff.mp h
  exact (List.getElem?_eq_some_iff.mp hcall).1

/-- The stage of a call after another one has been made. -/
theorem stage?_append (w : World α β) (c : Coordinator) (call : Call α β) (j : Nat) :
    (⟨c, w.calls ++ [call]⟩ : World α β).stage? j =
      if j = w.calls.length then some call.stage else w.stage? j := by
  rw [stage?_mk, List.getElem?_append]
  unfold stage?
  split
  case isTrue h => rw [if_neg (by omega)]
  case isFalse h =>
    split
    case isTrue heq => simp [heq]
    case isFalse hne =>
      rw [List.getElem?_eq_none (l := w.calls) (by omega),
        List.getElem?_eq_none (by simp only [List.length_singleton]; omega)]

/-- The calls made before stay as they are. -/
theorem stage?_append_of_some {w : World α β} {j : Nat} {s : Stage α β} (h : w.stage? j = some s)
    (c : Coordinator) (call : Call α β) :
    (⟨c, w.calls ++ [call]⟩ : World α β).stage? j = some s := by
  have hlt := lt_length_of_stage? h
  rw [stage?_append, if_neg (by omega), h]

/-- The stage of a call after one of them has had a turn. -/
theorem stage?_set {w : World α β} {i : Nat} {call : Call α β} (hcall : w.calls[i]? = some call)
    (c : Coordinator) (new : Call α β) (j : Nat) :
    (⟨c, w.calls.set i new⟩ : World α β).stage? j =
      if j = i then some new.stage else w.stage? j := by
  have hlt := (List.getElem?_eq_some_iff.mp hcall).1
  rw [stage?_mk]
  unfold stage?
  split
  case isTrue heq => simp [heq, hlt]
  case isFalse hne => rw [List.getElem?_set_ne (by omega)]

/-- A call that stands among the calls once another one has been made. -/
theorem call_append {calls : List (Call α β)} {i : Nat} {other call : Call α β}
    (h : (calls ++ [other])[i]? = some call) :
    calls[i]? = some call ∨ i = calls.length ∧ call = other := by
  rw [List.getElem?_append] at h
  split at h
  case isTrue => exact .inl h
  case isFalse hge =>
    obtain ⟨hlt, hcall⟩ := List.getElem?_eq_some_iff.mp h
    rw [List.length_singleton] at hlt
    rw [List.getElem_singleton] at hcall
    exact .inr ⟨by omega, hcall.symm⟩

/-- A call that stands among the calls once one of them has had a turn. -/
theorem call_set {calls : List (Call α β)} {i j : Nat} {other call : Call α β}
    (h : (calls.set j other)[i]? = some call) :
    i = j ∧ call = other ∨ i ≠ j ∧ calls[i]? = some call := by
  by_cases heq : i = j
  · subst heq
    obtain ⟨hlt, hcall⟩ := List.getElem?_eq_some_iff.mp h
    rw [List.getElem_set_self] at hcall
    exact .inl ⟨rfl, hcall.symm⟩
  · rw [List.getElem?_set_ne (Ne.symm heq)] at h
    exact .inr ⟨heq, h⟩

/-- A call that is not releasing the unit. -/
def Ingesting (w : World α β) (i : Nat) : Prop :=
  ∀ s, w.stage? i = some s → s.isRelease = false

/-- The state of the line for the lock, which every advance keeps. -/
structure Orderly (w : World α β) : Prop where
  idle : w.coordinator.lock.holder = none → w.coordinator.lock.queue = []
  nodup : w.coordinator.lock.line.Nodup
  mem_line : ∀ i, i ∈ w.coordinator.lock.line ↔ ∃ s, w.stage? i = some s ∧ s.reply? = none
  waits : ∀ i ∈ w.coordinator.lock.queue, ∀ s, w.stage? i = some s → s.awaitsLock = true
  fifo : w.coordinator.lock.line.Pairwise fun i j ↦ w.Ingesting i → w.Ingesting j → i < j
  suits : ∀ call ∈ w.calls, Coordinator.Suits call.request call.stage

theorem orderly_created (id : String) (checked : Checked) (timer : Timer) :
    (created id checked timer : World α β).Orderly where
  idle := fun _ ↦ rfl
  nodup := List.nodup_nil
  mem_line := fun i ↦ by simp [created, Coordinator.create, Lock.line, stage?]
  waits := fun i hi ↦ by cases hi
  fifo := List.Pairwise.nil
  suits := fun call hcall ↦ by cases hcall

/-- The holder of the lock is a call that has not ended. -/
theorem Orderly.holder {w : World α β} (h : w.Orderly) {i : Nat}
    (hlock : w.coordinator.lock.holder = some i) :
    ∃ call, w.calls[i]? = some call ∧ call.stage.reply? = none := by
  obtain ⟨s, hs, hreply⟩ := (h.mem_line i).mp (by simp [Lock.line_of_holder hlock])
  obtain ⟨call, hcall, rfl⟩ := Option.map_eq_some_iff.mp hs
  exact ⟨call, hcall, hreply⟩

/-- A call that waits for a collaborator holds the lock. -/
theorem Orderly.holder_of_operation {w : World α β} (h : w.Orderly) {i : Nat} {s : Stage α β}
    (hs : w.stage? i = some s) (hop : s.operation?.isSome = true) :
    w.coordinator.lock.holder = some i := by
  have hmem := (h.mem_line i).mpr ⟨s, hs, Stage.reply?_eq_none_of_operation hop⟩
  rcases List.mem_append.mp hmem with hholder | hqueue
  · exact Option.mem_toList.mp hholder
  · have hwaits := h.waits i hqueue s hs
    cases s <;> simp_all [Stage.operation?, Stage.awaitsLock]

/-- A call that is neither a stop nor a shutdown does not release the unit. -/
theorem Orderly.ingesting {w : World α β} (h : w.Orderly) {i : Nat} {call : Call α β}
    (hcall : w.calls[i]? = some call) (hstop : call.request ≠ .stop)
    (hshutdown : call.request ≠ .shutdown) : w.Ingesting i := by
  intro s hs
  rw [stage?_of_call hcall] at hs
  cases hs
  have hsuits := h.suits call (List.mem_of_getElem? hcall)
  cases hstage : call.stage <;> rw [hstage] at hsuits <;>
    first | rfl | exact absurd hsuits (not_or.mpr ⟨hstop, hshutdown⟩)

theorem Orderly.lt_length {w : World α β} (h : w.Orderly) {i : Nat}
    (hi : i ∈ w.coordinator.lock.line) : i < w.calls.length := by
  obtain ⟨s, hs, -⟩ := (h.mem_line i).mp hi
  exact lt_length_of_stage? hs

theorem Orderly.declines {w : World α β} (h : w.Orderly) (q : Request α) (r : Reply) :
    (⟨w.coordinator, w.calls ++ [⟨q, .ended r⟩]⟩ : World α β).Orderly where
  idle := h.idle
  nodup := h.nodup
  mem_line := by
    intro i
    rw [stage?_append]
    split
    case isTrue heq =>
      constructor
      · intro hi
        exact absurd (h.lt_length hi) (by omega)
      · rintro ⟨s, hs, hreply⟩
        cases hs
        cases hreply
    case isFalse hne => exact h.mem_line i
  waits := by
    intro i hi s hs
    have hlt := h.lt_length (List.mem_append_right _ hi)
    rw [stage?_append, if_neg (by omega)] at hs
    exact h.waits i hi s hs
  fifo := by
    refine h.fifo.imp_of_mem fun {i j} hi hj hlt hingesting hingesting' ↦ hlt ?_ ?_
    · intro s hs
      have hi' := h.lt_length hi
      exact hingesting s (by rw [stage?_append, if_neg (by omega)]; exact hs)
    · intro s hs
      have hj' := h.lt_length hj
      exact hingesting' s (by rw [stage?_append, if_neg (by omega)]; exact hs)
  suits := by
    intro call hcall
    rcases List.mem_append.mp hcall with hcall | hcall
    · exact h.suits call hcall
    · rw [List.mem_singleton.mp hcall]
      trivial

theorem Orderly.joins {w : World α β} (h : w.Orderly) {q : Request α} {d : Coordinator}
    {s : Stage α β} (hd : Coordinator.Joins q w.coordinator d s) :
    (⟨d.inLine w.calls.length, w.calls ++ [⟨q, s⟩]⟩ : World α β).Orderly := by
  have hlock := hd.lock
  have hawaits : s.awaitsLock = true := by cases hd <;> rfl
  have hreply : s.reply? = none := by cases hd <;> rfl
  have hline : (d.inLine w.calls.length).lock.line =
      w.coordinator.lock.line ++ [w.calls.length] := by
    change (d.lock.ask _).2.line = _
    rw [hlock]
    exact Lock.line_ask _ h.idle
  have hnew {i : Nat} (hi : i ∈ w.coordinator.lock.line) (c : Coordinator) :
      (⟨c, w.calls ++ [⟨q, s⟩]⟩ : World α β).stage? i = w.stage? i := by
    have hlt := h.lt_length hi
    rw [stage?_append, if_neg (by omega)]
  constructor
  · intro hnone
    exact absurd hnone (Lock.ask_holder_ne_none _ _)
  · change (d.inLine w.calls.length).lock.line.Nodup
    rw [hline, (List.perm_append_singleton _ _).nodup_iff]
    refine List.nodup_cons.mpr ⟨fun hmem ↦ ?_, h.nodup⟩
    exact absurd (h.lt_length hmem) (by omega)
  · intro i
    change i ∈ (d.inLine w.calls.length).lock.line ↔ _
    rw [hline, List.mem_append, List.mem_singleton, stage?_append]
    split
    case isTrue heq => simp [heq, hreply]
    case isFalse hne => simp [hne, h.mem_line i]
  · intro i hi t ht
    have hi' := Lock.mem_queue_ask hi
    rw [hlock] at hi'
    rw [stage?_append] at ht
    split at ht
    case isTrue => exact Option.some.inj ht ▸ hawaits
    case isFalse hne => exact h.waits i (hi'.resolve_right hne) t ht
  · change (d.inLine w.calls.length).lock.line.Pairwise _
    rw [hline, List.pairwise_append]
    refine ⟨?_, List.pairwise_singleton _ _, ?_⟩
    · refine h.fifo.imp_of_mem fun {i j} hi hj hlt hingesting hingesting' ↦ hlt ?_ ?_
      · exact fun t ht ↦ hingesting t ((hnew hi _).trans ht)
      · exact fun t ht ↦ hingesting' t ((hnew hj _).trans ht)
    · intro i hi j hj _ _
      rw [List.mem_singleton.mp hj]
      exact h.lt_length hi
  · intro call hcall
    rcases List.mem_append.mp hcall with hcall | hcall
    · exact h.suits call hcall
    · rw [List.mem_singleton.mp hcall]
      cases hd with
      | asks | stops => trivial
      | shutsDown hq => exact .inr hq

/-- The calls behind a call that has had its turn. -/
structure Behind (w : World α β) (i : Nat) (queue : List Nat) : Prop where
  nodup : (i :: queue).Nodup
  mem_queue : ∀ j, j ≠ i → (j ∈ queue ↔ ∃ s, w.stage? j = some s ∧ s.reply? = none)
  waits : ∀ j ∈ queue, ∀ s, w.stage? j = some s → s.awaitsLock = true
  fifo : queue.Pairwise fun j k ↦ w.Ingesting j → w.Ingesting k → j < k
  suits : ∀ call ∈ w.calls, Coordinator.Suits call.request call.stage

/-- A turn of the holder leaves those who wait where they are. -/
theorem Orderly.behind {w : World α β} (h : w.Orderly) {i : Nat} {call : Call α β}
    (hcall : w.calls[i]? = some call) (hlock : w.coordinator.lock.holder = some i)
    (c : Coordinator) (new : Call α β) (hnew : Coordinator.Suits new.request new.stage) :
    (⟨c, w.calls.set i new⟩ : World α β).Behind i w.coordinator.lock.queue := by
  have hline := Lock.line_of_holder hlock
  have hnodup := h.nodup
  have hfifo := h.fifo
  rw [hline] at hnodup hfifo
  have hstage {j : Nat} (hne : j ≠ i) :
      (⟨c, w.calls.set i new⟩ : World α β).stage? j = w.stage? j := by
    rw [stage?_set hcall, if_neg hne]
  have hne {j : Nat} (hj : j ∈ w.coordinator.lock.queue) : j ≠ i := by
    intro heq
    exact (List.nodup_cons.mp hnodup).1 (heq ▸ hj)
  constructor
  · exact hnodup
  · intro j hj
    rw [hstage hj, ← h.mem_line j, hline, List.mem_cons]
    simp [hj]
  · intro j hj s hs
    exact h.waits j hj s ((hstage (hne hj)).symm.trans hs)
  · refine (List.pairwise_cons.mp hfifo).2.imp_of_mem fun {j k} hj hk hlt hingesting hingesting' ↦
      hlt ?_ ?_
    · exact fun s hs ↦ hingesting s ((hstage (hne hj)).trans hs)
    · exact fun s hs ↦ hingesting' s ((hstage (hne hk)).trans hs)
  · intro other hother
    rcases List.mem_or_eq_of_mem_set hother with hother | rfl
    · exact h.suits other hother
    · exact hnew

theorem Behind.orderly_of_keeps {w : World α β} {i : Nat}
    (h : w.Behind i w.coordinator.lock.queue) (hlock : w.coordinator.lock.holder = some i)
    {s : Stage α β} (hs : w.stage? i = some s) (hreply : s.reply? = none)
    (hfirst : ∀ j ∈ w.coordinator.lock.queue, w.Ingesting i → w.Ingesting j → i < j) :
    w.Orderly := by
  have hline := Lock.line_of_holder hlock
  constructor
  · intro hnone
    exact absurd (hnone.symm.trans hlock) (by simp)
  · rw [hline]
    exact h.nodup
  · intro j
    rw [hline, List.mem_cons]
    by_cases heq : j = i
    · simp [heq, hs, hreply]
    · simp [heq, h.mem_queue j heq]
  · exact h.waits
  · rw [hline]
    exact List.pairwise_cons.mpr ⟨hfirst, h.fifo⟩
  · exact h.suits

theorem Behind.orderly_of_leaves {w : World α β} {i : Nat} {l : Lock} (h : w.Behind i l.queue)
    (hlock : w.coordinator.lock = l.release) {r : Reply} (hs : w.stage? i = some (.ended r)) :
    w.Orderly := by
  obtain ⟨hnot, hnodup⟩ := List.nodup_cons.mp h.nodup
  have hline : w.coordinator.lock.line = l.queue := by rw [hlock, Lock.line_release]
  constructor
  · rw [hlock]
    intro hnone
    have hqueue := Lock.queue_of_release_holder hnone
    exact List.subset_nil.mp (hqueue ▸ Lock.queue_release_subset l)
  · rw [hline]
    exact hnodup
  · intro j
    rw [hline]
    by_cases heq : j = i
    · simp [heq, hs, hnot, Stage.reply?]
    · exact h.mem_queue j heq
  · rw [hlock]
    exact fun j hj ↦ h.waits j (Lock.queue_release_subset l hj)
  · rw [hline]
    exact h.fifo
  · exact h.suits

theorem Behind.orderly_of_rejoins {w : World α β} {i : Nat} {l : Lock} (h : w.Behind i l.queue)
    (hlock : w.coordinator.lock = (l.release.ask i).2) (hheld : l.release.holder ≠ none)
    {r : Release} (hs : w.stage? i = some (.queuedToRelease r)) : w.Orderly := by
  have hline : w.coordinator.lock.line = l.queue ++ [i] := by
    rw [hlock, Lock.line_ask i fun hnone ↦ absurd hnone hheld, Lock.line_release]
  constructor
  · rw [hlock]
    exact fun hnone ↦ absurd hnone (Lock.ask_holder_ne_none _ _)
  · rw [hline, (List.perm_append_singleton _ _).nodup_iff]
    exact h.nodup
  · intro j
    rw [hline, List.mem_append, List.mem_singleton]
    by_cases heq : j = i
    · simp [heq, hs, Stage.reply?]
    · simp [heq, h.mem_queue j heq]
  · intro j hj s hj'
    rw [hlock] at hj
    rcases Lock.mem_queue_ask hj with hqueue | rfl
    · exact h.waits j (Lock.queue_release_subset l hqueue) s hj'
    · rw [hs] at hj'
      cases hj'
      rfl
  · -- a call that stands in line to release the unit is behind everyone
    rw [hline, List.pairwise_append]
    refine ⟨h.fifo, List.pairwise_singleton _ _, fun j _ k hk _ hingesting ↦ ?_⟩
    rw [List.mem_singleton.mp hk] at hingesting
    exact absurd (hingesting _ hs) (by simp [Stage.isRelease])
  · exact h.suits

/-- Whoever waits for the lock and is not releasing the unit was made after the holder. -/
theorem Orderly.holder_lt {w : World α β} (h : w.Orderly) {i : Nat}
    (hlock : w.coordinator.lock.holder = some i) (hingesting : w.Ingesting i) {j : Nat}
    (hj : j ∈ w.coordinator.lock.queue) (hingesting' : w.Ingesting j) : i < j := by
  have hfifo := h.fifo
  rw [Lock.line_of_holder hlock] at hfifo
  exact (List.pairwise_cons.mp hfifo).1 j hj hingesting hingesting'

theorem Orderly.turns {w : World α β} (h : w.Orderly) {i : Nat} {call : Call α β}
    {answer : Except Failure (List β)} {out : Coordinator × Stage α β}
    (hcall : w.calls[i]? = some call) (hlock : w.coordinator.lock.holder = some i)
    (hturn : Coordinator.Turn i call.request w.coordinator call.stage answer out) :
    (⟨out.1, w.calls.set i { call with stage := out.2 }⟩ : World α β).Orderly := by
  have hbehind := h.behind hcall hlock out.1 { call with stage := out.2 }
    (hturn.suits (h.suits call (List.mem_of_getElem? hcall)))
  have hset (j : Nat) := stage?_set hcall out.1 { call with stage := out.2 } j
  have hnow : (⟨out.1, w.calls.set i { call with stage := out.2 }⟩ : World α β).stage? i =
      some out.2 := by
    rw [hset, if_pos rfl]
  have hrelease := hturn.isRelease
  have hhandover := hturn.handover hlock
  obtain ⟨c, s⟩ := out
  dsimp only at hbehind hset hnow hrelease hhandover ⊢
  generalize hl : c.lock = l at hhandover
  cases hhandover with
  | leaves => exact hbehind.orderly_of_leaves hl hnow
  | rejoins _ hheld => exact hbehind.orderly_of_rejoins hl hheld hnow
  | keeps hs =>
    have hreply := Stage.reply?_eq_none_of_operation hs
    rw [← hl] at hbehind hlock
    refine hbehind.orderly_of_keeps hlock hnow hreply fun j hj hingesting hingesting' ↦ ?_
    have hne : j ≠ i := by
      intro heq
      exact (List.nodup_cons.mp hbehind.nodup).1 (heq ▸ hj)
    -- a call that is ingesting after the turn was so before it
    have hbefore : w.Ingesting i := by
      intro t ht
      rw [stage?_of_call hcall] at ht
      cases ht
      rw [Bool.eq_false_iff]
      intro hwas
      rcases hrelease hwas with hstill | hended
      · exact absurd ((hingesting s hnow).symm.trans hstill) (by simp)
      · simp [hreply] at hended
    rw [hl] at hlock hj
    refine h.holder_lt hlock hbefore hj fun t ht ↦ hingesting' t ?_
    rw [hset, if_neg hne]
    exact ht

theorem Orderly.advance {w w' : World α β} {new : History α β} (h : w.Orderly)
    (hadvance : Advance w w' new) : w'.Orderly := by
  cases hadvance with
  | declines q r => exact h.declines q r
  | joins q d s hjoins => exact h.joins hjoins
  | turns i call answer out hcall hlock hturn => exact h.turns hcall hlock hturn
  | retimes timer => exact ⟨h.idle, h.nodup, h.mem_line, h.waits, h.fifo, h.suits⟩

theorem Reaches.orderly {first w : World α β} {t : History α β} (hfirst : first.Orderly)
    (h : Reaches first w t) : w.Orderly := by
  induction h with
  | start => exact hfirst
  | advance _ hadvance ih => exact ih.advance hadvance

end World

end Bundling
