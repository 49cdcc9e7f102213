import Bundling.Proofs.Line

/-!
Runs. A move of a world comes to nothing, or is one advance, or makes a call that joins the line and
has its turn at once, so every run is a sequence of advances. An invariant of the coordinator, the
call that holds the lock and the history is checked against what a turn does and what other calls
may do in the meantime, and then holds in every world that is reached.
-/

set_option autoImplicit false
set_option relaxedAutoImplicit false

namespace Bundling

namespace World

variable {α β : Type}

theorem turn_stretch {w : World α β} (h : w.Orderly) {i : Nat} {call : Call α β}
    (answer : Except Failure (List β)) (hcall : w.calls[i]? = some call)
    (hrun : w.canRun i call.stage = true) :
    w.coordinator.lock.holder = some i ∧
      Coordinator.Turn i call.request w.coordinator call.stage answer
        (w.stretch i call answer) := by
  rcases Bool.or_eq_true_iff.mp hrun with hop | hawaits
  · refine ⟨h.holder_of_operation (stage?_of_call hcall) hop, ?_⟩
    have hturn := Coordinator.turn_resume w.coordinator i call.request call.stage answer hop
    unfold stretch
    split
    case h_1 hs => simp [hs, Stage.operation?] at hop
    case h_2 r hs => simp [hs, Stage.operation?] at hop
    case h_3 => exact hturn
  · obtain ⟨hs, hholds⟩ := Bool.and_eq_true_iff.mp hawaits
    refine ⟨by simpa [holdsLock] using hholds, ?_⟩
    unfold stretch
    cases hstage : call.stage with
    | queued =>
      simp only [hholds, if_true]
      exact Coordinator.turn_enter _ _ _ _
    | queuedToRelease r =>
      simp only [hholds, if_true]
      exact Coordinator.turn_enterRelease _ _ _ _ _
    | _ => simp [hstage, Stage.awaitsLock] at hs

/-- A call that cannot run is left as it is. -/
theorem proceed_of_not_canRun {w : World α β} {i : Nat} {call : Call α β}
    (answer : Except Failure (List β)) (hcall : w.calls[i]? = some call)
    (hrun : w.canRun i call.stage = false) : w.proceed i answer = w := by
  obtain ⟨hop, hawaits⟩ := Bool.or_eq_false_iff.mp hrun
  have hstretch : w.stretch i call answer = (w.coordinator, call.stage) := by
    unfold stretch
    cases hstage : call.stage <;> rw [hstage] at hop hawaits <;>
      simp_all [Stage.operation?, Stage.awaitsLock, Coordinator.resume]
  have hsame : w.calls.set i call = w.calls := by
    obtain ⟨hlt, hget⟩ := List.getElem?_eq_some_iff.mp hcall
    rw [← hget]
    exact List.set_getElem_self hlt
  unfold proceed
  rw [hcall]
  dsimp only
  rw [hstretch]
  change (⟨w.coordinator, w.calls.set i call⟩ : World α β) = w
  rw [hsame]

/-- A call that is made is turned away, or joins the line, or joins it and has its turn. -/
theorem issue_cases (w : World α β) (q : Request α) :
    Advance w (w.issue q) (w.events (.issue q)) ∨
      ∃ joined new, Advance w joined [.issued w.calls.length q] ∧
        Advance joined (w.issue q) new ∧ w.events (.issue q) = .issued w.calls.length q :: new := by
  have hevents : w.events (.issue q) = .issued w.calls.length q ::
      Event.reached w.calls.length q
        (w.coordinator.begin w.calls.length q : _ × Stage α β).2 := rfl
  rcases Coordinator.begin_cases (β := β) w.coordinator w.calls.length q with
    ⟨r, hdeclines, hbegin⟩ | ⟨d, s, hjoins, ⟨hlock, hbegin⟩ | ⟨hlock, hturn⟩⟩
  · left
    have hissue : w.issue q = ⟨w.coordinator, w.calls ++ [⟨q, .ended r⟩]⟩ := by
      unfold World.issue
      rw [hbegin]
    rw [hissue, hevents, hbegin]
    exact .declines q r hdeclines
  · left
    have hissue : w.issue q = ⟨d.inLine w.calls.length, w.calls ++ [⟨q, s⟩]⟩ := by
      unfold World.issue
      rw [hbegin]
    have hnothing : Event.reached w.calls.length q s = ([] : History α β) := by
      cases hjoins <;> rfl
    rw [hissue, hevents, hbegin, hnothing]
    exact .joins q d s hjoins
  · right
    have hholder : (d.inLine w.calls.length).lock.holder = some w.calls.length := by
      rw [Coordinator.inLine_holder, hjoins.lock, hlock]
      rfl
    have hleft : Event.left w.calls.length s (.ok []) = ([] : History α β) := by
      cases hjoins <;> rfl
    have hturned := Advance.turns (w := ⟨d.inLine w.calls.length, w.calls ++ [⟨q, s⟩]⟩)
      w.calls.length ⟨q, s⟩ (.ok []) _ (by simp) hholder hturn
    rw [hleft] at hturned
    exact ⟨_, _, .joins q d s hjoins, by simpa [World.issue] using hturned, hevents⟩

/-- A call that goes on has a turn, and one that cannot changes nothing. -/
theorem Orderly.proceed_turns {w : World α β} (h : w.Orderly) (i : Nat)
    (answer : Except Failure (List β)) :
    (w.proceed i answer = w ∧ w.events (.proceed i answer) = []) ∨
      ∃ (call : Call α β) (out : Coordinator × Stage α β),
        w.calls[i]? = some call ∧ w.coordinator.lock.holder = some i ∧
          Coordinator.Turn i call.request w.coordinator call.stage answer out ∧
          w.proceed i answer = ⟨out.1, w.calls.set i { call with stage := out.2 }⟩ ∧
          w.events (.proceed i answer) =
            Event.left i call.stage answer ++ Event.reached i call.request out.2 := by
  cases hcall : w.calls[i]? with
  | none => exact .inl (by simp [World.proceed, events, hcall])
  | some call =>
    cases hrun : w.canRun i call.stage with
    | false =>
      left
      exact ⟨proceed_of_not_canRun answer hcall hrun, by simp [events, hcall, hrun]⟩
    | true =>
      obtain ⟨hlock, hturn⟩ := turn_stretch h answer hcall hrun
      exact .inr ⟨call, _, rfl, hlock, hturn, by simp [World.proceed, hcall],
        by simp [events, hcall, hrun]⟩

theorem Orderly.proceed_cases {w : World α β} (h : w.Orderly) (i : Nat)
    (answer : Except Failure (List β)) :
    (w.proceed i answer = w ∧ w.events (.proceed i answer) = []) ∨
      Advance w (w.proceed i answer) (w.events (.proceed i answer)) := by
  rcases h.proceed_turns i answer with hstays | ⟨call, out, hcall, hlock, hturn, hproceed, hevents⟩
  · exact .inl hstays
  · rw [hproceed, hevents]
    exact .inr (.turns i call answer out hcall hlock hturn)

theorem Orderly.step_cases {w : World α β} (h : w.Orderly) (m : Move α β) :
    (w.step m = w ∧ w.events m = []) ∨ Advance w (w.step m) (w.events m) ∨
      ∃ i q joined new, Advance w joined [.issued i q] ∧ Advance joined (w.step m) new ∧
        w.events m = .issued i q :: new := by
  cases m with
  | issue q =>
    rcases w.issue_cases q with hadvance | ⟨joined, new, hjoins, hturns, hevents⟩
    · exact .inr (.inl hadvance)
    · exact .inr (.inr ⟨_, q, joined, new, hjoins, hturns, hevents⟩)
  | proceed i answer =>
    rcases h.proceed_cases i answer with hstays | hadvance
    · exact .inl hstays
    · exact .inr (.inl hadvance)
  | clock now => exact .inr (.inl (.retimes { w.coordinator.timer with now := now } rfl))
  | timerFaults schedule cancel =>
    exact .inr (.inl (.retimes { w.coordinator.timer with
      scheduleFault := schedule, cancelFault := cancel } rfl))

theorem Reaches.step {first w : World α β} {t : History α β} (horderly : w.Orderly)
    (h : Reaches first w t) (m : Move α β) :
    Reaches first (w.step m) (t ++ w.events m) := by
  rcases horderly.step_cases m with ⟨hstep, hevents⟩ | hadvance |
    ⟨i, q, joined, new, hjoins, hturns, hevents⟩
  · rw [hstep, hevents, List.append_nil]
    exact h
  · exact h.advance hadvance
  · rw [hevents, List.append_cons]
    exact (h.advance hjoins).advance hturns

theorem Reaches.trans {first mid w : World α β} {t u : History α β} (h : Reaches first mid t)
    (hrest : Reaches mid w u) : Reaches first w (t ++ u) := by
  induction hrest with
  | start => simpa using h
  | advance _ hadvance ih =>
    rw [← List.append_assoc]
    exact ih.advance hadvance

/-- Every run is a sequence of advances. -/
theorem reaches_run {w : World α β} (h : w.Orderly) (moves : List (Move α β)) :
    Reaches w (w.run moves) (w.trace moves) := by
  have hrun (moves : List (Move α β)) : ∀ (v : World α β) (t : History α β),
      Reaches w v t → Reaches w (v.run moves) (t ++ v.trace moves) := by
    induction moves with
    | nil =>
      intro v t hv
      simpa [trace, run] using hv
    | cons m moves ih =>
      intro v t hv
      have hnext := ih (v.step m) (t ++ v.events m) (hv.step (hv.orderly h) m)
      rw [List.append_assoc] at hnext
      exact hnext
  simpa using hrun moves w [] .start

/-! ### Invariants of the call with the lock -/

/-- The call that holds the lock; a call that has asked for nothing yet where there is none. -/
def acting (w : World α β) : Nat × Call α β :=
  (w.coordinator.lock.holder.bind fun i ↦ (w.calls[i]?).map fun call ↦ (i, call)).getD
    (0, ⟨.start, .queued⟩)

theorem acting_of_holder {w : World α β} {i : Nat} {call : Call α β}
    (hlock : w.coordinator.lock.holder = some i) (hcall : w.calls[i]? = some call) :
    w.acting = (i, call) := by
  simp [acting, hlock, hcall]

theorem acting_append {w : World α β} {d : Coordinator} {i : Nat} {call : Call α β}
    (hlock : d.lock.holder = some i) (hcall : w.calls[i]? = some call) (new : Call α β) :
    (⟨d, w.calls ++ [new]⟩ : World α β).acting = (i, call) := by
  have hlt := (List.getElem?_eq_some_iff.mp hcall).1
  exact acting_of_holder hlock ((List.getElem?_append_left hlt).trans hcall)

theorem Orderly.acting_of_operation {w : World α β} (h : w.Orderly) {i : Nat} {call : Call α β}
    (hcall : w.calls[i]? = some call) (hop : call.stage.operation?.isSome = true) :
    w.acting = (i, call) :=
  acting_of_holder (h.holder_of_operation (stage?_of_call hcall) hop) hcall

/-- A call that is turned away changes nothing about the call that holds the lock. -/
theorem Orderly.acting_declined {w : World α β} (h : w.Orderly) (new : Call α β) :
    (⟨w.coordinator, w.calls ++ [new]⟩ : World α β).acting = w.acting := by
  cases hholder : w.coordinator.lock.holder with
  | none => simp [acting, hholder]
  | some i =>
    obtain ⟨call, hcall, -⟩ := h.holder hholder
    rw [acting_of_holder hholder hcall, acting_append hholder hcall]

/-- A call that joins the line takes the lock only where nobody has it, and waits for no
collaborator yet. -/
theorem Orderly.acting_joined {w : World α β} (h : w.Orderly) {q : Request α} {d : Coordinator}
    {s : Stage α β} (hjoins : Coordinator.Joins q w.coordinator d s) :
    let w' : World α β := ⟨d.inLine w.calls.length, w.calls ++ [⟨q, s⟩]⟩
    w'.acting = w.acting ∨
      w.acting.2.stage.operation? = none ∧ w'.acting.2.stage.operation? = none := by
  intro w'
  have hnext := Coordinator.inLine_holder d w.calls.length
  rw [hjoins.lock] at hnext
  cases hholder : w.coordinator.lock.holder with
  | none =>
    right
    rw [hholder] at hnext
    have hacting : w'.acting = (w.calls.length, ⟨q, s⟩) := acting_of_holder hnext (by simp [w'])
    have hnobody : w.acting = (0, ⟨.start, .queued⟩) := by simp [acting, hholder]
    rw [hacting, hnobody]
    exact ⟨rfl, by cases hjoins <;> rfl⟩
  | some i =>
    left
    obtain ⟨call, hcall, -⟩ := h.holder hholder
    rw [hholder] at hnext
    rw [acting_of_holder hholder hcall]
    exact acting_append hnext hcall _

/-- After a turn the call that has had it goes on with the lock; or it has left the collaborators,
and the lock is with one that has not come to them yet. -/
theorem Orderly.acting_turned {w : World α β} (h : w.Orderly) {i : Nat} {call : Call α β}
    {answer : Except Failure (List β)} {out : Coordinator × Stage α β}
    (hcall : w.calls[i]? = some call) (hlock : w.coordinator.lock.holder = some i)
    (hturn : Coordinator.Turn i call.request w.coordinator call.stage answer out) :
    let w' : World α β := ⟨out.1, w.calls.set i { call with stage := out.2 }⟩
    w'.acting = (i, { call with stage := out.2 }) ∨
      out.2.operation? = none ∧ w'.acting.2.stage.operation? = none := by
  intro w'
  have hset (j : Nat) : w'.calls[j]? =
      if j = i then some { call with stage := out.2 } else w.calls[j]? := by
    have hlt := (List.getElem?_eq_some_iff.mp hcall).1
    by_cases heq : j = i
    · simp [w', heq, hlt]
    · simp [w', heq, List.getElem?_set_ne (Ne.symm heq)]
  have hwaiting (hleft : out.2.operation? = none)
      (hnext : ∀ j, out.1.lock.holder = some j → j ∈ w.coordinator.lock.queue) :
      w'.acting.2.stage.operation? = none := by
    cases hholder : out.1.lock.holder with
    | none => simp [w', acting, hholder, Stage.operation?]
    | some j =>
      have hj := hnext j hholder
      obtain ⟨s, hs, -⟩ := (h.mem_line j).mp (List.mem_append_right _ hj)
      obtain ⟨other, hother, rfl⟩ := Option.map_eq_some_iff.mp hs
      by_cases heq : j = i
      · rw [acting_of_holder hholder ((hset j).trans (if_pos heq))]
        exact hleft
      · rw [acting_of_holder hholder (((hset j).trans (if_neg heq)).trans hother)]
        have hwaits := h.waits j hj _ hs
        cases hstage : other.stage <;> simp_all [Stage.awaitsLock, Stage.operation?]
  have hnext (j : Nat) (h : w.coordinator.lock.release.holder = some j) :
      j ∈ w.coordinator.lock.queue := by
    rw [← Lock.line_release, Lock.line_of_holder h]
    exact List.mem_cons_self
  have hhandover := hturn.handover hlock
  obtain ⟨c, s⟩ := out
  dsimp only at hhandover hwaiting
  generalize hl : c.lock = l at hhandover hwaiting
  cases hhandover with
  | keeps hs =>
    exact .inl (acting_of_holder (by simp [w', hl, hlock]) ((hset i).trans (if_pos rfl)))
  | leaves r => exact .inr ⟨rfl, hwaiting rfl hnext⟩
  | rejoins r hheld =>
    refine .inr ⟨rfl, hwaiting rfl fun j hj ↦ hnext j ?_⟩
    rw [← hj]
    unfold Lock.ask
    split <;> simp_all

/-- An invariant of the coordinator, the call that holds the lock and the history. It does not tell
calls apart that wait for no collaborator, so it speaks of all moments, also of those at which the
lock is free or has just been granted. What is known of every call comes in as `R`. -/
structure Kept (R : Coordinator → Call α β → History α β → Prop)
    (P : Coordinator → Nat → Call α β → History α β → Prop) : Prop where
  rest : ∀ {c i j} {call other : Call α β} {t}, call.stage.operation? = none →
    other.stage.operation? = none → P c i call t → P c j other t
  turns : ∀ {c i} {call : Call α β} {answer out t}, c.lock.holder = some i →
    R c call t → Coordinator.Turn i call.request c call.stage answer out → P c i call t →
    P out.1 i { call with stage := out.2 }
      (t ++ (Event.left i call.stage answer ++ Event.reached i call.request out.2))
  joins : ∀ {c i n q d} {s : Stage α β} {call : Call α β} {t}, Coordinator.Joins q c d s →
    P c i call t → P (d.inLine n) i call (t ++ [Event.issued n q])
  declines : ∀ {c i n q r} {call : Call α β} {t}, Coordinator.Declines q c r →
    P c i call t → P c i call (t ++ [Event.issued n q, .replied n q r])
  retimes : ∀ {c i} {call : Call α β} {t timer}, P c i call t →
    P { c with timer := timer } i call t

variable {R : Coordinator → Call α β → History α β → Prop}
  {P : Coordinator → Nat → Call α β → History α β → Prop}

theorem Kept.joined (hP : Kept R P) {w : World α β} (horderly : w.Orderly) {t : History α β}
    {q : Request α} {d : Coordinator} {s : Stage α β}
    (hjoins : Coordinator.Joins q w.coordinator d s)
    (h : P w.coordinator w.acting.1 w.acting.2 t) :
    let w' : World α β := ⟨d.inLine w.calls.length, w.calls ++ [⟨q, s⟩]⟩
    P w'.coordinator w'.acting.1 w'.acting.2 (t ++ [Event.issued w.calls.length q]) := by
  intro w'
  have hkept := hP.joins (n := w.calls.length) hjoins h
  rcases horderly.acting_joined hjoins with hsame | ⟨hnow, hnext⟩
  · rw [hsame]
    exact hkept
  · exact hP.rest hnow hnext hkept

theorem Kept.turned (hP : Kept R P) {w : World α β} (horderly : w.Orderly) {t : History α β}
    {i : Nat} {call : Call α β} {answer : Except Failure (List β)} {out : Coordinator × Stage α β}
    (hcall : w.calls[i]? = some call) (hlock : w.coordinator.lock.holder = some i)
    (hturn : Coordinator.Turn i call.request w.coordinator call.stage answer out)
    (hcalls : ∀ call ∈ w.calls, R w.coordinator call t)
    (h : P w.coordinator w.acting.1 w.acting.2 t) :
    let w' : World α β := ⟨out.1, w.calls.set i { call with stage := out.2 }⟩
    P w'.coordinator w'.acting.1 w'.acting.2
      (t ++ (Event.left i call.stage answer ++ Event.reached i call.request out.2)) := by
  intro w'
  rw [acting_of_holder hlock hcall] at h
  have hkept := hP.turns hlock (hcalls call (List.mem_of_getElem? hcall)) hturn h
  rcases horderly.acting_turned hcall hlock hturn with hsame | ⟨hleft, hnext⟩
  · rw [hsame]
    exact hkept
  · exact hP.rest hleft hnext hkept

/-- What every advance keeps holds in every world that is reached. -/
theorem Kept.reaches (hP : Kept R P) {first w : World α β} {t : History α β}
    (hfirst : first.Orderly)
    (hcalls : ∀ {w : World α β} {t : History α β}, Reaches first w t →
      ∀ call ∈ w.calls, R w.coordinator call t)
    (hstart : P first.coordinator first.acting.1 first.acting.2 [])
    (h : Reaches first w t) : P w.coordinator w.acting.1 w.acting.2 t := by
  induction h with
  | start => exact hstart
  | @advance w w' t new hreaches hadvance ih =>
    have horderly := hreaches.orderly hfirst
    cases hadvance with
    | declines q r hdeclines =>
      rw [horderly.acting_declined]
      exact hP.declines hdeclines ih
    | joins q d s hjoins => exact hP.joined horderly hjoins ih
    | turns i call answer out hcall hlock hturn =>
      exact hP.turned horderly hcall hlock hturn (hcalls hreaches) ih
    | retimes timer =>
      rw [List.append_nil]
      exact hP.retimes ih

end World

end Bundling
