import Bundling.Proofs.Onlookers
import Bundling.Proofs.Run
import Mathlib.Data.List.Basic
import Mathlib.Data.List.Induction

/-!
Calls that interleave are as good as calls made one after the other. A call takes its place in the
order when it is granted the lock, or when it is declined; one that is declined in the middle of a
turn comes right after the call whose turn it is. The calls that wait come last, in line.
-/

set_option autoImplicit false
set_option relaxedAutoImplicit false

namespace Bundling

namespace Request

variable {α : Type}

/-- A request that brings an item or a watermark. -/
def feeds : Request α → Bool
  | submit _ | watermark _ => true
  | _ => false

end Request

namespace Coordinator

variable {α : Type}

/-- The items and watermarks that come while nothing changes the phase are all taken or all
declined. -/
theorem early_of_feeds (c : Coordinator) {q q' : Request α} (hq : q.feeds = true)
    (hq' : q'.feeds = true) (hearly : c.early q = none) : c.early q' = none := by
  have hiff {q : Request α} (hq : q.feeds = true) :
      c.early q = none ↔ c.latched = none ∧ c.phase = .running := by
    cases q with
    | submit x => exact early_eq_none_iff c (.inl ⟨x, rfl⟩)
    | watermark w => exact early_eq_none_iff c (.inr ⟨w, rfl⟩)
    | _ => cases hq
  exact (hiff hq').mpr ((hiff hq).mp hearly)

end Coordinator

/-! ### Places in the order -/

namespace World

variable {α β : Type}

def Ended (w : World α β) (i : Nat) : Prop := ∃ r, w.stage? i = some (.ended r)

theorem Ended.lt_length {w : World α β} {i : Nat} (h : w.Ended i) : i < w.calls.length := by
  obtain ⟨r, hr⟩ := h
  exact lt_length_of_stage? hr

/-- Every call that has been made has ended. -/
def Idle (w : World α β) : Prop := ∀ call ∈ w.calls, call.stage.reply?.isSome = true

instance (w : World α β) : Decidable w.Idle :=
  inferInstanceAs (Decidable (∀ call ∈ w.calls, call.stage.reply?.isSome = true))

theorem Orderly.lock_of_idle {w : World α β} (h : w.Orderly) (hidle : w.Idle) :
    w.coordinator.lock = {} := by
  have hline : w.coordinator.lock.line = [] := by
    refine List.eq_nil_iff_forall_not_mem.mpr fun i hi ↦ ?_
    obtain ⟨s, hs, hreply⟩ := (h.mem_line i).mp hi
    obtain ⟨call, hcall, rfl⟩ := Option.map_eq_some_iff.mp hs
    have hended := hidle call (List.mem_of_getElem? hcall)
    rw [hreply] at hended
    cases hended
  obtain ⟨hholder, hqueue⟩ := List.append_eq_nil_iff.mp hline
  generalize w.coordinator.lock = l at hholder hqueue
  obtain ⟨holder, queue⟩ := l
  simp_all

/-- A call that has ended stands in no line. -/
theorem Ended.notMem_line {w : World α β} {i : Nat} (h : w.Ended i) (horderly : w.Orderly) :
    i ∉ w.coordinator.lock.line := by
  intro hi
  obtain ⟨r, hr⟩ := h
  obtain ⟨s, hs, hreply⟩ := (horderly.mem_line i).mp hi
  rw [hr, Option.some.injEq] at hs
  rw [← hs] at hreply
  cases hreply

end World

namespace Request

variable {α : Type}

def FeedsAt (requests : List (Request α)) (i : Nat) : Prop :=
  ∃ q, requests[i]? = some q ∧ q.feeds = true

end Request

open Request in
/-- An order of all calls but the first ones: items and watermarks come as they were brought, and
no call comes before one that had ended when it was made. -/
structure Placed {α : Type} (first : Nat) (requests : List (Request α)) (before : Nat → Nat → Prop)
    (order : List Nat) : Prop where
  mem : ∀ i, i ∈ order ↔ first ≤ i ∧ i < requests.length
  nodup : order.Nodup
  feeds : order.Pairwise fun i j ↦ FeedsAt requests i → FeedsAt requests j → i < j
  respects : order.Pairwise fun i j ↦ ¬ before j i
  known : ∀ i j, before i j → i < requests.length ∧ j < requests.length

namespace Placed

variable {α : Type} {first : Nat} {requests : List (Request α)} {before : Nat → Nat → Prop}

open Request

theorem nil (first : Nat) (requests : List (Request α)) (h : requests.length = first) :
    Placed first requests (fun _ _ ↦ False) [] where
  mem := by
    intro i
    simp only [List.not_mem_nil, false_iff]
    omega
  nodup := List.nodup_nil
  feeds := List.Pairwise.nil
  respects := List.Pairwise.nil
  known := fun _ _ h ↦ h.elim

theorem mono {order : List Nat} {before' : Nat → Nat → Prop}
    (h : Placed first requests before order) (hbefore : ∀ i j, before' i j → before i j) :
    Placed first requests before' order where
  mem := h.mem
  nodup := h.nodup
  feeds := h.feeds
  respects := h.respects.imp fun hnot hij ↦ hnot (hbefore _ _ hij)
  known := fun i j hij ↦ h.known i j (hbefore i j hij)

theorem feedsAt_append {q : Request α} {i : Nat} (hi : i < requests.length) :
    FeedsAt (requests ++ [q]) i ↔ FeedsAt requests i := by
  unfold FeedsAt
  rw [List.getElem?_append_left hi]

theorem pairwise_insert {R S : Nat → Nat → Prop} {xs ys : List Nat} {n : Nat}
    (h : (xs ++ ys).Pairwise R) (hkeeps : ∀ i ∈ xs ++ ys, ∀ j ∈ xs ++ ys, R i j → S i j)
    (hbefore : ∀ i ∈ xs, S i n) (hafter : ∀ j ∈ ys, S n j) : (xs ++ n :: ys).Pairwise S := by
  obtain ⟨hxs, hys, hcross⟩ :=
    List.pairwise_append.mp (h.imp_of_mem fun {i j} hi hj ↦ hkeeps i hi j hj)
  refine List.pairwise_append.mpr ⟨hxs, List.pairwise_cons.mpr ⟨hafter, hys⟩, fun i hi j hj ↦ ?_⟩
  rcases List.mem_cons.mp hj with rfl | hj
  · exact hbefore i hi
  · exact hcross i hi j hj

/-- One more call may take any place behind which all calls are still pending. -/
theorem insert {xs ys : List Nat} (h : Placed first requests before (xs ++ ys)) (q : Request α)
    (before' : Nat → Nat → Prop) (hfirst : first ≤ requests.length)
    (hfeeds : q.feeds = true → ∀ j ∈ ys, ¬ FeedsAt requests j)
    (hbefore : ∀ i j, before' i j →
      before i j ∨ j = requests.length ∧ i < requests.length ∧ i ∉ ys) :
    Placed first (requests ++ [q]) before' (xs ++ requests.length :: ys) := by
  have hlt {i : Nat} (hi : i ∈ xs ++ ys) : i < requests.length := ((h.mem i).mp hi).2
  have hperm : (xs ++ requests.length :: ys).Perm (requests.length :: (xs ++ ys)) :=
    List.perm_middle
  constructor
  · intro i
    rw [hperm.mem_iff, List.mem_cons, h.mem, List.length_append, List.length_singleton]
    omega
  · rw [hperm.nodup_iff]
    exact List.nodup_cons.mpr ⟨fun hmem ↦ absurd (hlt hmem) (by omega), h.nodup⟩
  · refine pairwise_insert h.feeds (fun i hi j hj hij ↦ ?_) (fun i hi _ _ ↦ ?_)
      fun j hj hnew hold ↦ ?_
    · rw [feedsAt_append (hlt hi), feedsAt_append (hlt hj)]
      exact hij
    · exact hlt (List.mem_append_left ys hi)
    · rw [feedsAt_append (hlt (List.mem_append_right xs hj))] at hold
      obtain ⟨q', hq', hfeeds'⟩ := hnew
      rw [List.getElem?_concat_length, Option.some.injEq] at hq'
      exact absurd hold (hfeeds (hq' ▸ hfeeds') j hj)
  · refine pairwise_insert h.respects (fun i hi j _ hij hji ↦ ?_) (fun i hi hold ↦ ?_)
      fun j hj hold ↦ ?_
    · rcases hbefore j i hji with hji | ⟨rfl, -, -⟩
      · exact hij hji
      · exact absurd (hlt hi) (by omega)
    · rcases hbefore _ i hold with hold | ⟨rfl, -, -⟩
      · exact absurd (h.known _ i hold).1 (by omega)
      · exact absurd (hlt (List.mem_append_left ys hi)) (by omega)
    · rcases hbefore j _ hold with hold | ⟨-, -, hnot⟩
      · exact absurd (h.known j _ hold).2 (by omega)
      · exact hnot hj
  · intro i j hij
    rw [List.length_append, List.length_singleton]
    rcases hbefore i j hij with hij | ⟨rfl, hi, -⟩
    · have hknown := h.known i j hij
      omega
    · omega

end Placed

/-! ### The calls alone -/

namespace Rig

variable {α : Type}

/-- The calls at these places. -/
def callsAt (calls : List (Call α α)) (order : List Nat) : List (Call α α) :=
  order.filterMap fun i ↦ calls[i]?

theorem callsAt_append (calls : List (Call α α)) (order order' : List Nat) :
    callsAt calls (order ++ order') = callsAt calls order ++ callsAt calls order' :=
  List.filterMap_append

theorem callsAt_singleton {calls : List (Call α α)} {i : Nat} {call : Call α α}
    (hcall : calls[i]? = some call) : callsAt calls [i] = [call] := by
  simp [callsAt, hcall]

theorem callsAt_congr {calls calls' : List (Call α α)} {order : List Nat}
    (h : ∀ i ∈ order, calls'[i]? = calls[i]?) : callsAt calls' order = callsAt calls order :=
  List.filterMap_congr h

theorem callsAt_concat {calls : List (Call α α)} {order : List Nat} (call : Call α α)
    (h : ∀ i ∈ order, i < calls.length) :
    callsAt (calls ++ [call]) order = callsAt calls order :=
  callsAt_congr fun i hi ↦ List.getElem?_append_left (h i hi)

theorem callsAt_set {calls : List (Call α α)} {order : List Nat} {i : Nat} (call : Call α α)
    (h : i ∉ order) : callsAt (calls.set i call) order = callsAt calls order :=
  callsAt_congr fun j hj ↦ List.getElem?_set_ne (by rintro rfl; exact h hj)

/-- What is known of a rig at any moment of a batch of calls that ingest. -/
structure Steady (first r : Rig α) : Prop where
  grown : first.world.calls.length ≤ r.world.calls.length
  orderly : r.world.Orderly
  willing : r.recorder.Willing
  alike : r.world.coordinator.Alike first.world.coordinator
  pending : ∀ call ∈ r.world.calls, call.stage.reply? = none → call.request.Ingests ∧
    (call.request.looksFirst = true ∨ first.world.coordinator.early call.request = none)

/-- A rig is where the calls that have taken their place, made one after the other, lead to; in the
middle of a turn it is on the way from where the calls before that one lead to. The calls in the
second list wait. -/
inductive Matches (first r : Rig α) : List Nat → List Nat → Prop
  | apart (taken : List Nat)
      (hnobody : ∀ call ∈ r.world.calls, call.stage.operation? = none)
      (halone : first.inTurn ((callsAt r.world.calls taken).map (·.request)) =
        ⟨⟨r.world.coordinator.relock {}, first.world.calls ++ callsAt r.world.calls taken⟩,
          r.recorder⟩) :
      Matches first r taken r.world.coordinator.lock.line
  | amid (done late : List Nat) (i : Nat) (call : Call α α) (alone : Rig α)
      (hcall : r.world.calls[i]? = some call) (hop : call.stage.operation?.isSome = true)
      (halone : first.inTurn ((callsAt r.world.calls done).map (·.request)) = alone)
      (hcalls : alone.world.calls = first.world.calls ++ callsAt r.world.calls done)
      (hcomes : alone.ComesBy call.request (r.world.coordinator, call.stage) r.recorder)
      (hopen : r.world.coordinator.slot.isOpen = true → call.stage.handsOver = true)
      (hlate : ∀ j ∈ late, ∃ q reply, r.world.calls[j]? = some ⟨q, .ended reply⟩ ∧
        ∀ d : Coordinator, r.world.coordinator.Alike d →
          r.world.coordinator.slot.GoesOn d.slot → d.early q = some reply) :
      Matches first r (done ++ i :: late) r.world.coordinator.lock.queue

variable {first r : Rig α} {taken waiting : List Nat}

theorem Matches.waiting_subset (h : Matches first r taken waiting) :
    waiting ⊆ r.world.coordinator.lock.line := by
  cases h with
  | apart => exact List.Subset.refl _
  | amid => exact List.subset_append_right _ _

/-- A call that is declined takes its place at once. -/
theorem Matches.declines (h : Matches first r taken waiting)
    (htaken : ∀ i ∈ taken, i < r.world.calls.length) {q : Request α} {reply : Reply}
    (hearly : r.world.coordinator.early q = some reply) :
    Matches first ⟨⟨r.world.coordinator, r.world.calls ++ [⟨q, .ended reply⟩]⟩, r.recorder⟩
      (taken ++ [r.world.calls.length]) waiting := by
  have hnew : callsAt (r.world.calls ++ [⟨q, .ended reply⟩]) [r.world.calls.length] =
      [⟨q, .ended reply⟩] := callsAt_singleton List.getElem?_concat_length
  have hbelow {i : Nat} {call : Call α α} (hcall : r.world.calls[i]? = some call) :
      (r.world.calls ++ [⟨q, .ended reply⟩])[i]? = some call :=
    (List.getElem?_append_left (List.getElem?_eq_some_iff.mp hcall).1).trans hcall
  cases h with
  | apart _ hnobody halone =>
    refine .apart _ ?_ ?_
    · intro call hcall
      rcases List.mem_append.mp hcall with hcall | hcall
      · exact hnobody call hcall
      · rw [List.mem_singleton.mp hcall]
        rfl
    · rw [callsAt_append, hnew, callsAt_concat _ htaken, List.map_append, inTurn_append, halone]
      refine (inTurn_of_early [⟨q, .ended reply⟩] fun call hcall ↦ ?_).trans ?_
      · rw [List.mem_singleton.mp hcall]
        exact ⟨reply, rfl, hearly⟩
      · rw [List.append_assoc]
  | amid done late i call alone hcall hop halone hcalls hcomes hopen hlate =>
    have hdone := callsAt_concat (⟨q, .ended reply⟩ : Call α α)
      fun j hj ↦ htaken j (List.mem_append_left _ hj)
    rw [List.append_assoc, List.cons_append]
    refine .amid done _ i call alone (hbelow hcall) hop (by rw [hdone, halone])
      (by rw [hdone, hcalls]) hcomes hopen fun j hj ↦ ?_
    rcases List.mem_append.mp hj with hj | hj
    · obtain ⟨q', reply', hcall', hearly'⟩ := hlate j hj
      exact ⟨q', reply', hbelow hcall', hearly'⟩
    · rw [List.mem_singleton.mp hj]
      exact ⟨q, reply, List.getElem?_concat_length, fun d halike hslot ↦
        halike.early_of_goesOn hslot hearly⟩

/-- A call that stands in line waits behind all others. -/
theorem Matches.joins (h : Matches first r taken waiting) (hsteady : Steady first r)
    (htaken : ∀ i ∈ taken, i < r.world.calls.length) (q : Request α) :
    Matches first ⟨⟨r.world.coordinator.inLine r.world.calls.length,
        r.world.calls ++ [⟨q, .queued⟩]⟩, r.recorder⟩
      taken (waiting ++ [r.world.calls.length]) := by
  have hbelow {i : Nat} {call : Call α α} (hcall : r.world.calls[i]? = some call) :
      (r.world.calls ++ [⟨q, .queued⟩])[i]? = some call :=
    (List.getElem?_append_left (List.getElem?_eq_some_iff.mp hcall).1).trans hcall
  cases h with
  | apart _ hnobody halone =>
    have hline : (r.world.coordinator.inLine r.world.calls.length).lock.line =
        r.world.coordinator.lock.line ++ [r.world.calls.length] :=
      Lock.line_ask _ hsteady.orderly.idle
    rw [← hline]
    refine .apart _ ?_ ?_
    · intro call hcall
      rcases List.mem_append.mp hcall with hcall | hcall
      · exact hnobody call hcall
      · rw [List.mem_singleton.mp hcall]
        rfl
    · rw [callsAt_concat _ htaken]
      exact halone
  | amid done late i call alone hcall hop halone hcalls hcomes hopen hlate =>
    have hdone := callsAt_concat (⟨q, .queued⟩ : Call α α)
      fun j hj ↦ htaken j (List.mem_append_left _ hj)
    have hholder := hsteady.orderly.holder_of_operation (World.stage?_of_call hcall) hop
    have hqueue : (r.world.coordinator.inLine r.world.calls.length).lock.queue =
        r.world.coordinator.lock.queue ++ [r.world.calls.length] := by
      simp [Coordinator.inLine, Lock.ask, hholder]
    rw [← hqueue]
    refine .amid done late i call alone (hbelow hcall) hop (by rw [hdone, halone])
      (by rw [hdone, hcalls]) hcomes hopen fun j hj ↦ ?_
    obtain ⟨q', reply', hcall', hearly'⟩ := hlate j hj
    exact ⟨q', reply', hbelow hcall', fun d halike ↦
      hearly' d ⟨halike.phase, halike.latched, halike.policy, halike.timer⟩⟩

/-- The call that has the lock has gone on from here: either it has come to a collaborator, or it
has ended, and with it the turn. -/
theorem Matches.turned (hsteady : Steady first r) {done late : List Nat} {i : Nat}
    {call : Call α α} {alone : Rig α} {out : Coordinator × Stage α α} {recorder : Recorder α}
    (hcall : r.world.calls[i]? = some call)
    (hlock : r.world.coordinator.lock.holder = some i)
    (hnodup : (done ++ i :: late).Nodup)
    (halone : first.inTurn ((callsAt r.world.calls done).map (·.request)) = alone)
    (hcalls : alone.world.calls = first.world.calls ++ callsAt r.world.calls done)
    (hcomes : alone.ComesBy call.request out recorder)
    (hhandover : Coordinator.Handover i r.world.coordinator.lock out.1.lock out.2)
    (hsuits : Coordinator.Suits call.request out.2) (hq : call.request.Ingests)
    (hopen : out.2.operation?.isSome = true → out.1.slot.isOpen = true → out.2.handsOver = true)
    (hlate : ∀ j ∈ late, ∃ q reply, r.world.calls[j]? = some ⟨q, .ended reply⟩ ∧
      ∀ d : Coordinator, out.1.Alike d → out.1.slot.GoesOn d.slot → d.early q = some reply) :
    ∃ taken waiting,
      Matches first ⟨⟨out.1, r.world.calls.set i { call with stage := out.2 }⟩, recorder⟩
        taken waiting ∧
      taken ++ waiting = done ++ i :: late ++ r.world.coordinator.lock.queue := by
  obtain ⟨hlt, hget⟩ := List.getElem?_eq_some_iff.mp hcall
  have hnotmem : i ∉ done ∧ i ∉ late := by
    obtain ⟨-, hnodup', hcross⟩ := List.nodup_append.mp hnodup
    exact ⟨fun hi ↦ hcross i hi i List.mem_cons_self rfl, (List.nodup_cons.mp hnodup').1⟩
  have hdone (new : Call α α) : callsAt (r.world.calls.set i new) done =
      callsAt r.world.calls done := callsAt_set new hnotmem.1
  obtain ⟨c, s⟩ := out
  dsimp only at hhandover hsuits hopen hlate
  generalize hl : r.world.coordinator.lock = l at hhandover
  generalize hm : c.lock = m at hhandover
  cases hhandover with
  | rejoins =>
    rcases hsuits with hstop | hshutdown
    · rw [hstop] at hq
      exact hq.elim
    · rw [hshutdown] at hq
      exact hq.elim
  | keeps hop =>
    refine ⟨_, _, .amid done late i { call with stage := s } alone (by simp [hlt]) hop
      (by rw [hdone, halone]) (by rw [hdone, hcalls]) hcomes (hopen hop) fun j hj ↦ ?_, ?_⟩
    · obtain ⟨q, reply, hj', hearly⟩ := hlate j hj
      have hne : i ≠ j := by
        rintro rfl
        exact hnotmem.2 hj
      exact ⟨q, reply, (List.getElem?_set_ne hne).trans hj', hearly⟩
    · rw [← hm]
  | leaves reply =>
    have hset (j : Nat) : (r.world.calls.set i { call with stage := .ended reply })[j]? =
        if i = j then some { call with stage := .ended reply } else r.world.calls[j]? := by
      rw [List.getElem?_set]
      simp [hlt]
    refine ⟨done ++ i :: late, _, .apart _ (fun other hother ↦ ?_) ?_, ?_⟩
    · obtain ⟨j, hj⟩ := List.mem_iff_getElem?.mp hother
      rw [hset] at hj
      split at hj
      case isTrue =>
        rw [← Option.some.inj hj]
        rfl
      case isFalse hne =>
        -- only the call with the lock is at a collaborator
        by_contra hop
        have hholder := hsteady.orderly.holder_of_operation (World.stage?_of_call hj)
          (Option.isSome_iff_ne_none.mpr hop)
        exact hne (Option.some.inj (hlock.symm.trans hholder))
    · have hnew : callsAt (r.world.calls.set i { call with stage := .ended reply })
          (done ++ i :: late) = callsAt r.world.calls done ++
            ({ call with stage := .ended reply } :: callsAt r.world.calls late) := by
        rw [callsAt_append, hdone, ← List.singleton_append (l := late), callsAt_append,
          callsAt_singleton ((hset i).trans (if_pos rfl)), callsAt_set _ hnotmem.2]
        rfl
      have hdeclined : ∀ other ∈ callsAt r.world.calls late, ∃ reply,
          other.stage = .ended reply ∧ (c.relock {}).early other.request = some reply := by
        intro other hother
        obtain ⟨j, hj, hother⟩ := List.mem_filterMap.mp hother
        obtain ⟨q, reply', hj', hearly⟩ := hlate j hj
        rw [hj', Option.some.injEq] at hother
        exact ⟨reply', by rw [← hother],
          by rw [← hother]; exact hearly _ ⟨rfl, rfl, rfl, rfl⟩ (.refl _)⟩
      change first.inTurn ((callsAt (r.world.calls.set i { call with stage := .ended reply })
          (done ++ i :: late)).map (·.request)) =
        ⟨⟨c.relock {}, first.world.calls ++ callsAt
          (r.world.calls.set i { call with stage := .ended reply }) (done ++ i :: late)⟩, recorder⟩
      rw [hnew, List.map_append, List.map_cons, inTurn_append, halone]
      change (alone.attend call.request).inTurn ((callsAt r.world.calls late).map (·.request)) = _
      rw [hcomes.attend_eq, inTurn_of_early _ hdeclined, hcalls]
      simp
    · change done ++ i :: late ++ c.lock.line = _
      rw [hm, Lock.line_release]

/-! ### One move more -/

theorem Steady.declines (h : Steady first r) (q : Request α) (reply : Reply) :
    Steady first
      ⟨⟨r.world.coordinator, r.world.calls ++ [⟨q, .ended reply⟩]⟩, r.recorder⟩ where
  grown := by simpa using Nat.le_succ_of_le h.grown
  orderly := h.orderly.declines q reply
  willing := h.willing
  alike := h.alike
  pending := by
    intro call hcall hreply
    rcases List.mem_append.mp hcall with hcall | hcall
    · exact h.pending call hcall hreply
    · rw [List.mem_singleton.mp hcall] at hreply
      cases hreply

theorem Steady.joins (h : Steady first r) {q : Request α} (hq : q.Ingests)
    (hearly : r.world.coordinator.early q = none) :
    Steady first ⟨⟨r.world.coordinator.inLine r.world.calls.length,
      r.world.calls ++ [⟨q, .queued⟩]⟩, r.recorder⟩ where
  grown := by simpa using Nat.le_succ_of_le h.grown
  orderly := h.orderly.joins
    (.asks (by rintro rfl; exact hq) (by rintro rfl; exact hq) hearly)
  willing := h.willing
  alike := ⟨h.alike.phase, h.alike.latched, h.alike.policy, h.alike.timer⟩
  pending := by
    intro call hcall hreply
    rcases List.mem_append.mp hcall with hcall | hcall
    · exact h.pending call hcall hreply
    · rw [List.mem_singleton.mp hcall]
      refine ⟨hq, ?_⟩
      cases hfirst : q.looksFirst with
      | true => exact .inl rfl
      | false => exact .inr ((h.alike.early hfirst).symm.trans hearly)

theorem Steady.turns (h : Steady first r) {i : Nat} {call : Call α α} {results : List α}
    {out : Coordinator × Stage α α} {recorder : Recorder α} (hcall : r.world.calls[i]? = some call)
    (hlock : r.world.coordinator.lock.holder = some i)
    (hturn : Coordinator.Turn i call.request r.world.coordinator call.stage (.ok results) out)
    (hrecorder : recorder.Willing) :
    Steady first
      ⟨⟨out.1, r.world.calls.set i { call with stage := out.2 }⟩, recorder⟩ where
  grown := by simpa using h.grown
  orderly := h.orderly.turns hcall hlock hturn
  willing := hrecorder
  alike := by
    have hmem := List.mem_of_getElem? hcall
    exact (hturn.alike (h.orderly.suits call hmem)
      (h.pending call hmem hturn.reply?_eq_none).1).trans h.alike
  pending := by
    intro other hother hreply
    rcases List.mem_or_eq_of_mem_set hother with hother | rfl
    · exact h.pending other hother hreply
    · exact h.pending call (List.mem_of_getElem? hcall) hturn.reply?_eq_none

/-- The calls so far have an order in which, made one after the other, they lead to where the rig
is. -/
structure Serialized (first r : Rig α) (before : Nat → Nat → Prop) : Prop where
  steady : Steady first r
  placed : ∃ taken waiting, Matches first r taken waiting ∧
    Placed first.world.calls.length (r.world.calls.map (·.request)) before (taken ++ waiting)

variable {before before' : Nat → Nat → Prop}

theorem Serialized.mono (h : Serialized first r before)
    (hbefore : ∀ i j, before' i j → before i j) :
    Serialized first r before' := by
  obtain ⟨taken, waiting, hmatches, hplaced⟩ := h.placed
  exact ⟨h.steady, taken, waiting, hmatches, hplaced.mono hbefore⟩

theorem Serialized.turns (h : Serialized first r before) {i : Nat} {call : Call α α}
    {results : List α} {out : Coordinator × Stage α α} {recorder : Recorder α}
    (hcall : r.world.calls[i]? = some call) (hlock : r.world.coordinator.lock.holder = some i)
    (hturn : Coordinator.Turn i call.request r.world.coordinator call.stage (.ok results) out)
    (hout : call.stage = .queued ∧ out = r.world.coordinator.enter i call.request ∧
        recorder = r.recorder ∨
      ∃ op, call.stage.operation? = some op ∧
        out = r.world.coordinator.resume i call.request call.stage
          (.ok (r.recorder.carryOut op).1) ∧
        recorder = (r.recorder.carryOut op).2) :
    Serialized first ⟨⟨out.1, r.world.calls.set i { call with stage := out.2 }⟩, recorder⟩
      before := by
  obtain ⟨taken, waiting, hmatches, hplaced⟩ := h.placed
  have hmem := List.mem_of_getElem? hcall
  have hsuits := h.steady.orderly.suits call hmem
  obtain ⟨hq, hearly⟩ := h.steady.pending call hmem hturn.reply?_eq_none
  have hstop : call.request ≠ .stop := by intro heq; rw [heq] at hq; exact hq
  have hshutdown : call.request ≠ .shutdown := by intro heq; rw [heq] at hq; exact hq
  have hrecorder : recorder.Willing := by
    rcases hout with ⟨-, -, rfl⟩ | ⟨op, -, -, rfl⟩
    · exact h.steady.willing
    · exact h.steady.willing.carryOut op
  suffices hnext : ∃ taken' waiting',
      Matches first ⟨⟨out.1, r.world.calls.set i { call with stage := out.2 }⟩, recorder⟩
        taken' waiting' ∧ taken' ++ waiting' = taken ++ waiting by
    obtain ⟨taken', waiting', hmatches', heq⟩ := hnext
    refine ⟨h.steady.turns hcall hlock hturn hrecorder, taken', waiting', hmatches', ?_⟩
    have hrequests : (r.world.calls.set i { call with stage := out.2 }).map (·.request) =
        r.world.calls.map (·.request) := by
      have hsome : (r.world.calls.map (·.request))[i]? = some call.request := by simp [hcall]
      obtain ⟨hlt, hget⟩ := List.getElem?_eq_some_iff.mp hsome
      rw [List.map_set]
      change (r.world.calls.map (·.request)).set i call.request = _
      rw [← hget]
      exact List.set_getElem_self hlt
    rw [heq]
    exact hrequests ▸ hplaced
  have hhandover := hturn.handover hlock
  have hsuits' := hturn.suits hsuits
  cases hmatches with
  | apart _ hnobody halone =>
    obtain ⟨hqueued, rfl, rfl⟩ := hout.resolve_right (by
      rintro ⟨op, hop, -⟩
      exact absurd (hnobody call hmem) (by simp [hop]))
    have hline : taken ++ r.world.coordinator.lock.line =
        taken ++ i :: [] ++ r.world.coordinator.lock.queue := by
      rw [Lock.line_of_holder hlock, List.append_assoc]
      rfl
    rw [hline] at hplaced ⊢
    refine Matches.turned h.steady hcall hlock (List.nodup_append.mp hplaced.nodup).1 halone rfl
      (comesBy_enter i rfl hstop hshutdown ?_) hhandover hsuits' hq (fun hop hopen ↦ ?_) (by simp)
    · cases hfirst : call.request.looksFirst with
      | true => exact .inl rfl
      | false =>
        exact .inr ((h.steady.alike.early hfirst).trans (hearly.resolve_left (by simp [hfirst])))
    · exact hturn.handsOver hsuits hq (by simp [hqueued, Stage.operation?]) hop hopen
  | amid done late j other alone hother hop halone hcalls hcomes hopen hlate =>
    have hsame : j = i :=
      Option.some.inj ((h.steady.orderly.holder_of_operation (World.stage?_of_call hother)
        hop).symm.trans hlock)
    subst hsame
    rw [hcall, Option.some.injEq] at hother
    subst hother
    obtain ⟨op, hop', rfl, rfl⟩ := hout.resolve_left (by
      rintro ⟨hqueued, -⟩
      rw [hqueued] at hop
      cases hop)
    have hgoes := hturn.goesOn hsuits hq (fun _ ↦ hopen) hop
    have halike := hturn.alike hsuits hq
    refine Matches.turned h.steady hcall hlock (List.nodup_append.mp hplaced.nodup).1 halone hcalls
      (hcomes.resume j op hstop h.steady.willing hop') hhandover hsuits' hq
      (hturn.handsOver hsuits hq fun _ ↦ hopen) fun k hk ↦ ?_
    obtain ⟨q, reply, hk', hdeclines⟩ := hlate k hk
    exact ⟨q, reply, hk', fun d hd hslot ↦ hdeclines d (halike.symm.trans hd) (hgoes.trans hslot)⟩

/-- While an item or a watermark waits, none is declined. -/
theorem Steady.not_feedsAt (h : Steady first r) {q : Request α} {reply : Reply}
    (hearly : r.world.coordinator.early q = some reply) (hq : q.feeds = true) {i : Nat}
    (hi : i ∈ r.world.coordinator.lock.line) :
    ¬ Request.FeedsAt (r.world.calls.map (·.request)) i := by
  rintro ⟨q', hq', hfeeds⟩
  obtain ⟨s, hs, hreply⟩ := (h.orderly.mem_line i).mp hi
  obtain ⟨call, hcall, rfl⟩ := Option.map_eq_some_iff.mp hs
  rw [List.getElem?_map, hcall, Option.map_some, Option.some.injEq] at hq'
  have hfirst : q'.looksFirst = false := by cases q' <;> first | rfl | cases hfeeds
  have hpending := (h.pending call (List.mem_of_getElem? hcall) hreply).2
  rw [hq', ← h.alike.early hfirst] at hpending
  have hnone := r.world.coordinator.early_of_feeds hfeeds hq
    (hpending.resolve_left (by simp [hfirst]))
  exact absurd (hnone.symm.trans hearly) (by simp)

theorem Serialized.declines (h : Serialized first r before) {q : Request α} {reply : Reply}
    (hearly : r.world.coordinator.early q = some reply)
    (hbefore : ∀ i j, before' i j → before i j ∨ j = r.world.calls.length ∧ r.world.Ended i) :
    Serialized first
      ⟨⟨r.world.coordinator, r.world.calls ++ [⟨q, .ended reply⟩]⟩, r.recorder⟩ before' := by
  obtain ⟨taken, waiting, hmatches, hplaced⟩ := h.placed
  have htaken (i : Nat) (hi : i ∈ taken) : i < r.world.calls.length := by
    simpa using ((hplaced.mem i).mp (List.mem_append_left _ hi)).2
  refine ⟨h.steady.declines q reply, _, _, hmatches.declines htaken hearly, ?_⟩
  have hnext := hplaced.insert q before'
    (by simpa using h.steady.grown)
    (fun hq j hj ↦ h.steady.not_feedsAt hearly hq (hmatches.waiting_subset hj))
    fun i j hij ↦ (hbefore i j hij).imp_right fun ⟨hj, hi⟩ ↦ ⟨by simpa using hj,
      by simpa using hi.lt_length, fun hmem ↦
        hi.notMem_line h.steady.orderly (hmatches.waiting_subset hmem)⟩
  simpa using hnext

theorem Serialized.joins (h : Serialized first r before) {q : Request α} (hq : q.Ingests)
    (hearly : r.world.coordinator.early q = none)
    (hbefore : ∀ i j, before' i j → before i j ∨ j = r.world.calls.length ∧ r.world.Ended i) :
    Serialized first ⟨⟨r.world.coordinator.inLine r.world.calls.length,
      r.world.calls ++ [⟨q, .queued⟩]⟩, r.recorder⟩ before' := by
  obtain ⟨taken, waiting, hmatches, hplaced⟩ := h.placed
  have htaken (i : Nat) (hi : i ∈ taken) : i < r.world.calls.length := by
    simpa using ((hplaced.mem i).mp (List.mem_append_left _ hi)).2
  refine ⟨h.steady.joins hq hearly, _, _, hmatches.joins h.steady htaken q, ?_⟩
  rw [← List.append_nil (taken ++ waiting)] at hplaced
  have hnext := hplaced.insert q before' (by simpa using h.steady.grown)
    (by simp) fun i j hij ↦ (hbefore i j hij).imp_right fun ⟨hj, hi⟩ ↦
      ⟨by simpa using hj, by simpa using hi.lt_length, List.not_mem_nil⟩
  simpa using hnext

/-! ### A batch of calls -/

/-- One call had ended when another one was made. -/
def EndedBefore (r : Rig α) (moves : List (Move α)) (i j : Nat) : Prop :=
  ∃ past q rest, moves = past ++ .issue q :: rest ∧ (r.run past).world.calls.length = j ∧
    (r.run past).world.Ended i

theorem endedBefore_snoc {r : Rig α} {moves : List (Move α)} {m : Move α} {i j : Nat}
    (h : r.EndedBefore (moves ++ [m]) i j) :
    r.EndedBefore moves i j ∨
      (∃ q, m = .issue q) ∧ j = (r.run moves).world.calls.length ∧
        (r.run moves).world.Ended i := by
  obtain ⟨past, q, rest, heq, hj, hi⟩ := h
  rcases List.eq_nil_or_concat rest with rfl | ⟨rest', last, rfl⟩
  · obtain ⟨rfl, hlast⟩ := List.append_inj' heq rfl
    exact .inr ⟨⟨q, (List.cons.inj hlast).1⟩, hj.symm, hi⟩
  · have hsplit : moves ++ [m] = (past ++ .issue q :: rest') ++ [last] := by simpa using heq
    exact .inl ⟨past, q, rest', (List.append_inj' hsplit rfl).1, hj, hi⟩

/-- A move of a batch: a call that ingests is made, or a call goes on and no operation fails. -/
def Move.Ingests : Move α → Prop
  | .issue q => q.Ingests
  | .proceed _ fault => fault = none
  | .clock _ => False

theorem Serialized.issue (h : Serialized first r before) {q : Request α} (hq : q.Ingests)
    (hbefore : ∀ i j, before' i j → before i j ∨ j = r.world.calls.length ∧ r.world.Ended i) :
    Serialized first (r.issue q) before' := by
  have hstop : q ≠ .stop := by rintro rfl; exact hq
  have hshutdown : q ≠ .shutdown := by rintro rfl; exact hq
  have hissue : r.issue q =
      ⟨⟨(r.world.coordinator.begin r.world.calls.length q).1, r.world.calls ++
        [⟨q, (r.world.coordinator.begin r.world.calls.length q).2⟩]⟩, r.recorder⟩ := rfl
  rw [hissue]
  cases hearly : r.world.coordinator.early q with
  | some reply =>
    rw [Coordinator.begin_of_early _ hearly]
    exact h.declines hearly hbefore
  | none =>
    have hjoined := h.joins hq hearly hbefore
    by_cases hlock : r.world.coordinator.lock.holder = none
    · -- the call joins an empty line and has its turn at once
      rw [Coordinator.begin_of_free _ hstop hshutdown hearly hlock]
      have hholder : (r.world.coordinator.inLine r.world.calls.length).lock.holder =
          some r.world.calls.length := by
        rw [Coordinator.inLine_holder, hlock]
        rfl
      have hcall : (r.world.calls ++ [⟨q, .queued⟩])[r.world.calls.length]? =
          some ⟨q, .queued⟩ := List.getElem?_concat_length
      have hturned := hjoined.turns hcall hholder (Coordinator.turn_enter _ _ _ (.ok []))
        (.inl ⟨rfl, rfl, rfl⟩)
      simpa using hturned
    · rw [Coordinator.begin_of_held _ hstop hshutdown hearly hlock]
      exact hjoined

theorem Serialized.proceed (h : Serialized first r before) (i : Nat) :
    Serialized first (r.step (.proceed i none)) before := by
  have horderly := h.steady.orderly
  rcases r.proceed_cases i none with ⟨-, hstep⟩ |
    ⟨call, op, a, recorder, hcall, hop, hanswer, -, hstep⟩ | ⟨call, hcall, hop, -, hstep⟩ <;>
    rw [hstep]
  · exact h
  · have hsome : call.stage.operation?.isSome = true := by rw [hop]; rfl
    have hperform : r.answer op none =
        some (.ok (r.recorder.carryOut op).1, (r.recorder.carryOut op).2) :=
      h.steady.willing.perform op
    rw [hperform, Option.some.injEq, Prod.mk.injEq] at hanswer
    obtain ⟨rfl, rfl⟩ := hanswer
    rw [World.proceed_of_operation _ hcall hsome]
    exact h.turns hcall (horderly.holder_of_operation (World.stage?_of_call hcall) hsome)
      (Coordinator.turn_resume _ _ _ _ _ hsome) (.inr ⟨op, hop, rfl, rfl⟩)
  · cases hrun : r.world.canRun i call.stage with
    | false =>
      rw [World.proceed_of_not_canRun _ hcall hrun]
      exact h
    | true =>
      obtain ⟨hlock, hturn⟩ := World.turn_stretch horderly (.ok []) hcall hrun
      have hmem := List.mem_of_getElem? hcall
      have hqueued : call.stage = .queued := by
        have hawaits : call.stage.awaitsLock = true := by
          simp only [World.canRun, hop, Option.isSome_none, Bool.false_or, Bool.and_eq_true] at hrun
          exact hrun.1
        have hsuits := horderly.suits call hmem
        have hq := (h.steady.pending call hmem hturn.reply?_eq_none).1
        cases hs : call.stage with
        | queued => rfl
        | queuedToRelease r =>
          rw [hs] at hsuits
          rcases hsuits with heq | heq <;> rw [heq] at hq <;> exact hq.elim
        | _ => rw [hs] at hawaits; cases hawaits
      rw [World.proceed_of_queued _ hcall hqueued hlock]
      have hturn := Coordinator.turn_enter r.world.coordinator i call.request (.ok ([] : List α))
      rw [← hqueued] at hturn
      exact h.turns hcall hlock hturn (.inl ⟨hqueued, rfl, rfl⟩)

/-- Every move of a batch keeps the calls in an order. -/
theorem Serialized.run (hfirst : Serialized first first (first.EndedBefore []))
    {batch : List (Move α)} (hbatch : ∀ m ∈ batch, m.Ingests) :
    Serialized first (first.run batch) (first.EndedBefore batch) := by
  induction batch using List.reverseRecOn with
  | nil => exact hfirst
  | append_singleton moves m ih =>
    have hmoves := ih fun m' hm' ↦ hbatch m' (List.mem_append_left _ hm')
    have hm := hbatch m (by simp)
    rw [run_snoc]
    cases m with
    | clock now => exact hm.elim
    | issue q =>
      exact hmoves.issue hm fun i j hij ↦ (endedBefore_snoc hij).imp_right fun ⟨_, hj, hi⟩ ↦
        ⟨hj, hi⟩
    | proceed i fault =>
      cases hm
      refine (hmoves.proceed i).mono fun j k hjk ↦ (endedBefore_snoc hjk).resolve_right ?_
      rintro ⟨⟨q, hq⟩, -⟩
      cases hq

theorem willing_step {r : Rig α} (h : r.recorder.Willing) (m : Move α) :
    (r.step m).recorder.Willing := by
  cases m with
  | issue | clock => exact h
  | proceed i fault =>
    rcases r.proceed_cases i fault with ⟨-, hstep⟩ | ⟨_, op, a, recorder, -, -, hanswer, -, hstep⟩ |
      ⟨_, _, _, -, hstep⟩ <;> rw [hstep]
    · exact h
    · cases fault with
      | some f =>
        cases hanswer
        exact h
      | none =>
        have hperform := (h.perform op).symm.trans hanswer
        rw [Option.some.injEq, Prod.mk.injEq] at hperform
        exact hperform.2 ▸ h.carryOut op
    · exact h

theorem willing_run {r : Rig α} (h : r.recorder.Willing) (moves : List (Move α)) :
    (r.run moves).recorder.Willing := by
  induction moves generalizing r with
  | nil => exact h
  | cons m moves ih => exact ih (willing_step h m)

/-- Where nothing is under way, no call has to be put in order. -/
theorem serialized_of_idle {r : Rig α} (horderly : r.world.Orderly) (hwilling : r.recorder.Willing)
    (hidle : r.world.Idle) : Serialized r r (r.EndedBefore []) := by
  have hlock := horderly.lock_of_idle hidle
  have hnone (call : Call α α) (hcall : call ∈ r.world.calls) : call.stage.reply? ≠ none :=
    Option.isSome_iff_ne_none.mp (hidle call hcall)
  refine ⟨⟨Nat.le_refl _, horderly, hwilling, .refl _, fun call hcall hreply ↦
    absurd hreply (hnone call hcall)⟩, [], r.world.coordinator.lock.line, .apart [] ?_ ?_, ?_⟩
  · intro call hcall
    have hreply := hnone call hcall
    cases hs : call.stage <;> rw [hs] at hreply <;> simp_all [Stage.reply?, Stage.operation?]
  · rw [← hlock]
    simp [callsAt, inTurn]
  · rw [hlock]
    refine (Placed.nil _ _ (by simp)).mono fun i j hij ↦ ?_
    obtain ⟨past, q, rest, heq, -⟩ := hij
    simp at heq

/-- A rig that a run leads to, with a recorder that refuses nothing. Operations may have been made
to fail in the run. -/
def Reachable (r : Rig α) : Prop :=
  ∃ (id : String) (checked : Checked) (timer : Timer) (moves : List (Move α)),
    r = (created id checked timer []).run moves

/-- Calls that interleave in a batch, with none of the operations failing, have an order in which,
made one after the other, they come to the same end: the same coordinator, the same recorder and
the same reply to every call. The order has items and watermarks as they were brought, and no call
ahead of one that had ended when it was made. -/
theorem exists_order {start : Rig α} (hstart : start.Reachable) (hidle : start.world.Idle)
    {batch : List (Move α)} (hbatch : ∀ m ∈ batch, m.Ingests)
    (hended : (start.run batch).world.Idle) :
    ∃ order : List Nat,
      order.Perm (List.range' start.world.calls.length
        ((start.run batch).world.calls.length - start.world.calls.length)) ∧
      order.Pairwise (fun i j ↦
        Request.FeedsAt ((start.run batch).world.calls.map (·.request)) i →
          Request.FeedsAt ((start.run batch).world.calls.map (·.request)) j → i < j) ∧
      order.Pairwise (fun i j ↦ ¬ start.EndedBefore batch j i) ∧
      start.inTurn ((callsAt (start.run batch).world.calls order).map (·.request)) =
        ⟨⟨(start.run batch).world.coordinator,
          start.world.calls ++ callsAt (start.run batch).world.calls order⟩,
          (start.run batch).recorder⟩ := by
  obtain ⟨id, checked, timer, before, rfl⟩ := hstart
  have horderly := (reaches id checked timer [] before).orderly (World.orderly_created _ _ _)
  have hwilling := willing_run (r := created id checked timer []) ⟨rfl, rfl⟩ before
  obtain ⟨hsteady, taken, waiting, hmatches, hplaced⟩ :=
    Serialized.run (serialized_of_idle horderly hwilling hidle) hbatch
  have hlock := hsteady.orderly.lock_of_idle hended
  cases hmatches with
  | amid _ _ _ call _ hcall hop =>
    have hreply := hended call (List.mem_of_getElem? hcall)
    cases hs : call.stage <;> rw [hs] at hreply hop <;> simp_all [Stage.reply?, Stage.operation?]
  | apart _ _ halone =>
    rw [hlock] at hplaced
    rw [show Lock.line {} = [] from rfl, List.append_nil] at hplaced
    refine ⟨taken, ?_, hplaced.feeds, hplaced.respects, ?_⟩
    · rw [List.perm_ext_iff_of_nodup hplaced.nodup List.nodup_range']
      intro i
      have hgrown := hsteady.grown
      rw [hplaced.mem, List.mem_range'_1, List.length_map]
      omega
    · rw [← hlock, Coordinator.relock_lock] at halone
      exact halone

/-- A plain rig that has started. -/
def running : Rig Nat := plain.run [.issue .start, .proceed 0 none]

/-- While the end of the input drains a bundle, a watermark waits and a tick finds nothing to do. -/
def tickAmidDrain : List (Move Nat) :=
  [.issue (.submit 1), .proceed 1 none, .proceed 1 none, .issue .endInput, .issue (.watermark ⟨5⟩),
    .proceed 2 none, .issue .tick, .proceed 2 none, .proceed 2 none, .proceed 3 none,
    .proceed 3 none]

theorem exists_order_tickAmidDrain :
    running.Reachable ∧ running.world.Idle ∧ (∀ m ∈ tickAmidDrain, m.Ingests) ∧
      (running.run tickAmidDrain).world.Idle ∧
      ∃ order : List Nat, order.Perm (List.range' 1 4) ∧
        running.inTurn
            ((callsAt (running.run tickAmidDrain).world.calls order).map (·.request)) =
          ⟨⟨(running.run tickAmidDrain).world.coordinator,
            running.world.calls ++ callsAt (running.run tickAmidDrain).world.calls order⟩,
            (running.run tickAmidDrain).recorder⟩ := by
  have hstart : running.Reachable := ⟨_, _, _, _, rfl⟩
  have hidle : running.world.Idle := by decide
  have hbatch : ∀ m ∈ tickAmidDrain, m.Ingests := by
    simp [tickAmidDrain, Move.Ingests, Request.Ingests]
  have hended : (running.run tickAmidDrain).world.Idle := by decide
  have hcount : List.range' running.world.calls.length
      ((running.run tickAmidDrain).world.calls.length - running.world.calls.length) =
        List.range' 1 4 := by
    decide
  obtain ⟨order, hperm, -, -, hserial⟩ := exists_order hstart hidle hbatch hended
  rw [hcount] at hperm
  exact ⟨hstart, hidle, hbatch, hended, order, hperm, hserial⟩

end Rig

end Bundling
