import Mathlib.Data.List.Induction
import Bundling.Proofs.HoldBack

/-!
The order of watermarks. The lock is granted in turn, so watermarks are accepted in the order in
which they were brought in. A rig whose collaborators do not fail forwards the survivors among them
in that order, each after all results of the items taken before it.
-/

set_option autoImplicit false
set_option relaxedAutoImplicit false

namespace Bundling

namespace Request

variable {α : Type}

def watermark? : Request α → Option Watermark
  | watermark w => some w
  | _ => none

end Request

namespace History

variable {α β : Type}

def accepted? : Event α β → Option (Nat × Watermark)
  | .replied i (.watermark w) .done => some (i, w)
  | _ => none

/-- The watermarks that have been accepted, each with the call that brought it. -/
def accepted (h : History α β) : List (Nat × Watermark) := h.filterMap accepted?

def offered? : Event α β → Option Watermark
  | .issued _ q => q.watermark?
  | _ => none

/-- The watermarks that have been brought in. -/
def offered (h : History α β) : List Watermark := h.filterMap offered?

theorem accepted_append (h new : History α β) : accepted (h ++ new) = accepted h ++ accepted new :=
  List.filterMap_append

theorem offered_append (h new : History α β) : offered (h ++ new) = offered h ++ offered new :=
  List.filterMap_append

theorem accepted_after (h : History α β) :
    (Ledger.after h).accepted.map (·.watermark) = (accepted h).map Prod.snd := by
  induction h using List.reverseRecOn with
  | nil => rfl
  | append_singleton h e ih =>
    rw [Ledger.after_snoc, accepted_append, List.map_append, ← ih]
    have hother (he : ∀ l : Ledger, l.step e = l) (hnone : accepted? e = none) :
        ((Ledger.after h).step e).accepted.map (·.watermark) =
          (Ledger.after h).accepted.map (·.watermark) ++ (accepted [e]).map Prod.snd := by
      simp [he, accepted, hnone]
    cases e with
    | issued => exact hother (fun _ ↦ rfl) rfl
    | asked i op => cases op <;> simp [Ledger.step, accepted, accepted?]
    | answered i op a => cases op <;> cases a <;> simp [Ledger.step, accepted, accepted?]
    | replied i q r =>
      cases q with
      | watermark w =>
        cases r with
        | done => simp [Ledger.step, accepted, accepted?]
        | _ => exact hother (fun _ ↦ rfl) rfl
      | _ => exact hother (fun _ ↦ rfl) rfl

theorem smooth_nil : Smooth ([] : History α β) :=
  ⟨fun _ _ _ he ↦ (by cases he), fun _ he ↦ (by cases he)⟩

theorem Smooth.append {h new : History α β} (hsmooth : Smooth h) (hnew : Smooth new) :
    Smooth (h ++ new) := by
  refine ⟨fun i op f he ↦ ?_, fun i he ↦ ?_⟩ <;> rcases List.mem_append.mp he with he | he
  · exact hsmooth.1 i op f he
  · exact hnew.1 i op f he
  · exact hsmooth.2 i he
  · exact hnew.2 i he

theorem smooth_reached (i : Nat) (q : Request α) (s : Stage α β) :
    Smooth (Event.reached i q s : History α β) := by
  constructor
  · intro j op f he
    cases s <;> simp [Event.reached, Stage.operation?, Stage.reply?] at he
  · intro j he
    cases s <;> simp [Event.reached, Stage.operation?, Stage.reply?] at he

theorem smooth_left (i : Nat) (s : Stage α β) (results : List β) :
    Smooth (Event.left i s (.ok results) : History α β) := by
  unfold Event.left
  split
  case h_1 op _ =>
    refine ⟨fun j op' f he ↦ ?_, fun j he ↦ by simp at he⟩
    cases op <;> simp [Operation.outcome] at he
  case h_2 => exact smooth_nil

/-- Nothing is left behind where no collaborator fails. -/
theorem Smooth.not_undelivered {h : History α α} (hsmooth : Smooth h) : ¬ Undelivered h := by
  rintro (⟨i, x, f, hlost⟩ | ⟨before, i, op, f, rest, rfl, -⟩)
  · exact hsmooth.1 i _ f hlost
  · exact hsmooth.1 i op f (by simp)

end History

namespace World

variable {α β : Type}

open History

/-- What the calls have been made for. -/
def requests (w : World α β) : List (Request α) := w.calls.map (·.request)

/-- Calls accept watermarks in the order in which they were made. -/
structure Arrives (w : World α β) (t : History α β) : Prop where
  brought : offered t = w.requests.filterMap Request.watermark?
  taken : ∀ p ∈ accepted t, w.requests[p.1]? = some (.watermark p.2)
  order : (accepted t).Pairwise fun p p' ↦ p.1 < p'.1
  ahead : ∀ p ∈ accepted t, ∀ i s, w.stage? i = some s → s.reply? = none → s.isRelease = false →
    p.1 < i

theorem requests_set {w : World α β} {i : Nat} {call : Call α β} (hcall : w.calls[i]? = some call)
    (c : Coordinator) (s : Stage α β) :
    (⟨c, w.calls.set i { call with stage := s }⟩ : World α β).requests = w.requests := by
  obtain ⟨hlt, hget⟩ := List.getElem?_eq_some_iff.mp hcall
  unfold requests
  rw [List.map_set]
  refine List.ext_getElem? fun j ↦ ?_
  by_cases heq : j = i
  · simp [heq, hlt, hget]
  · rw [List.getElem?_set_ne (Ne.symm heq)]

theorem accepted_left (i : Nat) (s : Stage α β) (answer : Except Failure (List β)) :
    accepted (Event.left i s answer : History α β) = [] := by
  unfold Event.left
  split <;> rfl

theorem offered_left (i : Nat) (s : Stage α β) (answer : Except Failure (List β)) :
    offered (Event.left i s answer : History α β) = [] := by
  unfold Event.left
  split <;> rfl

theorem offered_reached (i : Nat) (q : Request α) (s : Stage α β) :
    offered (Event.reached i q s : History α β) = [] := by
  cases s <;> rfl

theorem accepted_reached (i : Nat) (q : Request α) (s : Stage α β) :
    accepted (Event.reached i q s : History α β) = [] ∨
      ∃ w, q = .watermark w ∧ s = .ended .done ∧
        accepted (Event.reached i q s : History α β) = [(i, w)] := by
  cases s with
  | ended r =>
    cases q with
    | watermark w =>
      cases r with
      | done => exact .inr ⟨w, rfl, rfl, rfl⟩
      | _ => exact .inl rfl
    | _ => exact .inl rfl
  | _ => exact .inl rfl

theorem Arrives.lt_length {w : World α β} {t : History α β} (h : w.Arrives t)
    {p : Nat × Watermark} (hp : p ∈ accepted t) : p.1 < w.requests.length :=
  (List.getElem?_eq_some_iff.mp (h.taken p hp)).1

/-- One more call has been made, and has accepted nothing yet. -/
theorem Arrives.append {w : World α β} {t : History α β} (h : w.Arrives t) (c : Coordinator)
    (q : Request α) (s : Stage α β) {new : History α β} (hnew : accepted new = [])
    (hbrought : offered new = q.watermark?.toList) :
    (⟨c, w.calls ++ [⟨q, s⟩]⟩ : World α β).Arrives (t ++ new) := by
  have hsame : accepted (t ++ new) = accepted t := by
    rw [accepted_append, hnew, List.append_nil]
  have hrequests : (⟨c, w.calls ++ [⟨q, s⟩]⟩ : World α β).requests = w.requests ++ [q] := by
    simp [requests]
  constructor
  · rw [offered_append, h.brought, hbrought, hrequests, List.filterMap_append]
    cases hmark : q.watermark? <;> simp [hmark]
  · intro p hp
    rw [hsame] at hp
    rw [hrequests, List.getElem?_append_left (h.lt_length hp)]
    exact h.taken p hp
  · rw [hsame]
    exact h.order
  · intro p hp i s' hs' hreply hrelease
    rw [hsame] at hp
    rw [stage?_append] at hs'
    split at hs'
    case isTrue heq =>
      have hlt := h.lt_length hp
      rw [requests, List.length_map] at hlt
      rw [heq]
      exact hlt
    case isFalse => exact h.ahead p hp i s' hs' hreply hrelease

section Turn

variable {w : World α β} {t : History α β} {i : Nat} {call : Call α β}
  {answer : Except Failure (List β)} {out : Coordinator × Stage α β}

/-- The holder is behind all calls that have accepted a watermark. -/
theorem Arrives.lt_holder (h : w.Arrives t) (horderly : w.Orderly)
    (hcall : w.calls[i]? = some call) (hlock : w.coordinator.lock.holder = some i)
    (hingesting : call.stage.isRelease = false) {p : Nat × Watermark} (hp : p ∈ accepted t) :
    p.1 < i := by
  obtain ⟨other, hother, hnone⟩ := horderly.holder hlock
  cases hcall.symm.trans hother
  exact h.ahead p hp i _ (stage?_of_call hcall) hnone hingesting

theorem accepted_turn (t : History α β) (i : Nat) (call : Call α β)
    (answer : Except Failure (List β)) (out : Coordinator × Stage α β) :
    accepted (t ++ (Event.left i call.stage answer ++ Event.reached i call.request out.2)) =
      accepted t ++ accepted (Event.reached i call.request out.2 : History α β) := by
  rw [accepted_append, accepted_append, accepted_left, List.nil_append]

theorem Arrives.brought_turn (h : w.Arrives t) (hcall : w.calls[i]? = some call) :
    offered (t ++ (Event.left i call.stage answer ++ Event.reached i call.request out.2)) =
      (⟨out.1, w.calls.set i { call with stage := out.2 }⟩ : World α β).requests.filterMap
        Request.watermark? := by
  rw [requests_set hcall, offered_append, offered_append, offered_left, offered_reached,
    List.append_nil, List.append_nil]
  exact h.brought

theorem Arrives.passes (h : w.Arrives t) (horderly : w.Orderly) (hcall : w.calls[i]? = some call)
    (hlock : w.coordinator.lock.holder = some i)
    (hturn : Coordinator.Turn i call.request w.coordinator call.stage answer out)
    (hnone : accepted (Event.reached i call.request out.2 : History α β) = []) :
    (⟨out.1, w.calls.set i { call with stage := out.2 }⟩ : World α β).Arrives
      (t ++ (Event.left i call.stage answer ++ Event.reached i call.request out.2)) := by
  have hsame := accepted_turn t i call answer out
  rw [hnone, List.append_nil] at hsame
  constructor
  · exact h.brought_turn hcall
  · rw [hsame, requests_set hcall]
    exact h.taken
  · rw [hsame]
    exact h.order
  · intro p hp j s hs hreply hrelease
    rw [hsame] at hp
    rw [stage?_set hcall] at hs
    split at hs
    case isFalse => exact h.ahead p hp j s hs hreply hrelease
    case isTrue heq =>
      cases hs
      rw [heq]
      refine h.lt_holder horderly hcall hlock ?_ hp
      rw [Bool.eq_false_iff]
      intro hwas
      rcases hturn.isRelease hwas with hstill | hended
      · exact absurd (hrelease.symm.trans hstill) (by simp)
      · simp [hreply] at hended

/-- A call that accepts its watermark is behind all that have accepted one, and ahead of all that
wait. -/
theorem Arrives.accepts (h : w.Arrives t) (horderly : w.Orderly) (hcall : w.calls[i]? = some call)
    (hlock : w.coordinator.lock.holder = some i) {v : Watermark}
    (hq : call.request = .watermark v) (hdone : out.2 = .ended .done)
    (hone : accepted (Event.reached i call.request out.2 : History α β) = [(i, v)]) :
    (⟨out.1, w.calls.set i { call with stage := out.2 }⟩ : World α β).Arrives
      (t ++ (Event.left i call.stage answer ++ Event.reached i call.request out.2)) := by
  have hmore := accepted_turn t i call answer out
  rw [hone] at hmore
  have hingesting := horderly.ingesting hcall (by simp [hq]) (by simp [hq])
  constructor
  · exact h.brought_turn hcall
  · intro p hp
    rw [hmore, List.mem_append, List.mem_singleton] at hp
    rw [requests_set hcall]
    rcases hp with hp | rfl
    · exact h.taken p hp
    · simp [requests, hcall, hq]
  · rw [hmore, List.pairwise_append]
    refine ⟨h.order, List.pairwise_singleton _ _, fun p hp p' hp' ↦ ?_⟩
    rw [List.mem_singleton.mp hp']
    exact h.lt_holder horderly hcall hlock (hingesting _ (stage?_of_call hcall)) hp
  · intro p hp j s hs hreply hrelease
    rw [hmore, List.mem_append, List.mem_singleton] at hp
    rw [stage?_set hcall] at hs
    split at hs
    case isTrue =>
      cases hs
      rw [hdone] at hreply
      cases hreply
    case isFalse hne =>
      rcases hp with hp | rfl
      · exact h.ahead p hp j s hs hreply hrelease
      · have hmem := (horderly.mem_line j).mpr ⟨s, hs, hreply⟩
        rw [Lock.line_of_holder hlock, List.mem_cons] at hmem
        refine horderly.holder_lt hlock hingesting (hmem.resolve_left hne) fun u hu ↦ ?_
        rw [hs] at hu
        cases hu
        exact hrelease

theorem Arrives.turns (h : w.Arrives t) (horderly : w.Orderly) (hcall : w.calls[i]? = some call)
    (hlock : w.coordinator.lock.holder = some i)
    (hturn : Coordinator.Turn i call.request w.coordinator call.stage answer out) :
    (⟨out.1, w.calls.set i { call with stage := out.2 }⟩ : World α β).Arrives
      (t ++ (Event.left i call.stage answer ++ Event.reached i call.request out.2)) := by
  rcases accepted_reached i call.request out.2 with hnone | ⟨v, hq, hdone, hone⟩
  · exact h.passes horderly hcall hlock hturn hnone
  · exact h.accepts horderly hcall hlock hq hdone hone

end Turn

theorem Reaches.arrives {id : String} {checked : Checked} {timer : Timer} {w : World α β}
    {t : History α β} (h : Reaches (created id checked timer) w t) : w.Arrives t := by
  have hcreated := orderly_created (α := α) (β := β) id checked timer
  induction h with
  | start =>
    exact ⟨rfl, fun p hp ↦ (by cases hp), List.Pairwise.nil, fun p hp ↦ (by cases hp)⟩
  | @advance w w' t new hreaches hadvance ih =>
    cases hadvance with
    | declines q r hdeclines =>
      refine ih.append w.coordinator q (.ended r) ?_ ?_
      · have hnone : accepted? (.replied w.calls.length q r : Event α β) = none := by
          rcases hdeclines.watermark_or_done with hq | hr
          · cases q <;> first | rfl | exact absurd rfl (hq _)
          · cases q <;> cases r <;> first | rfl | exact absurd rfl hr
        unfold accepted
        rw [List.filterMap_cons_none rfl, List.filterMap_cons_none hnone]
        rfl
      · cases hmark : q.watermark? <;> simp [offered, offered?, hmark]
    | joins q d s =>
      refine ih.append (d.inLine w.calls.length) q s rfl ?_
      cases hmark : q.watermark? <;> simp [offered, offered?, hmark]
    | turns i call answer out hcall hlock hturn =>
      exact ih.turns (hreaches.orderly hcreated) hcall hlock hturn
    | retimes timer =>
      rw [List.append_nil]
      exact ⟨ih.brought, ih.taken, ih.order, ih.ahead⟩

/-- Of watermarks that are brought in order, a later call brings the greater. -/
theorem Arrives.le_of_lt {w : World α β} {t : History α β} (h : w.Arrives t)
    (hsorted : (offered t).Pairwise (· ≤ ·)) {i j : Nat} (hlt : i < j) {u v : Watermark}
    (hi : w.requests[i]? = some (.watermark u)) (hj : w.requests[j]? = some (.watermark v)) :
    u ≤ v := by
  rw [h.brought, List.pairwise_filterMap, List.pairwise_iff_getElem] at hsorted
  obtain ⟨hbound, hrequest⟩ := List.getElem?_eq_some_iff.mp hi
  obtain ⟨hbound', hrequest'⟩ := List.getElem?_eq_some_iff.mp hj
  exact hsorted i j hbound hbound' hlt u (by rw [hrequest]; rfl) v (by rw [hrequest']; rfl)

/-- Watermarks that are brought in order are accepted in order. -/
theorem Arrives.sorted {w : World α β} {t : History α β} (h : w.Arrives t)
    (hsorted : (offered t).Pairwise (· ≤ ·)) : ((accepted t).map Prod.snd).Pairwise (· ≤ ·) := by
  rw [List.pairwise_map]
  exact h.order.imp_of_mem fun {p p'} hp hp' hlt ↦
    h.le_of_lt hsorted hlt (h.taken p hp) (h.taken p' hp')

end World

namespace Rig

variable {α : Type}

open History

/-- No planned fault, and no direct shutdown. -/
def Move.Smooth : Move α → Prop
  | .issue q => q ≠ .shutdown
  | .proceed _ fault => fault = none
  | .clock _ => True

/-- A recorder that refuses nothing goes on to refuse nothing. -/
theorem perform_willing {r r' : Recorder α} {op : Operation α α} {a : Except Failure (List α)}
    (hfailing : r.failing = []) (hchannel : r.channel = none)
    (ha : r.perform op = some (a, r')) :
    (∃ results, a = .ok results) ∧ r'.failing = [] ∧ r'.channel = none := by
  have hrecord : r.perform op = some (r.record op) := by
    unfold Recorder.perform
    rw [hchannel]
  have hsucceeds : r.record op = (.ok (r.carryOut op).1, (r.carryOut op).2) := by
    simp [Recorder.record, Recorder.refusal?, hfailing]
  rw [hrecord, hsucceeds] at ha
  cases ha
  refine ⟨⟨_, rfl⟩, ?_, ?_⟩
  · cases op <;> exact hfailing
  · cases op <;> exact hchannel

theorem smooth_step {r : Rig α} {m : Move α} (hm : m.Smooth) (hfailing : r.recorder.failing = [])
    (hchannel : r.recorder.channel = none) :
    Smooth (r.events m) ∧ (r.step m).recorder.failing = [] ∧
      (r.step m).recorder.channel = none := by
  have hworld (below : Bundling.Move α α) :
      r.world.trace [below] = r.world.events below := by
    simp [World.trace]
  unfold events
  cases m with
  | issue q =>
    refine ⟨?_, hfailing, hchannel⟩
    rw [worldMoves, hworld]
    refine Smooth.append (h := [.issued _ q]) ⟨fun j op f he ↦ by simp at he, fun j he ↦ ?_⟩
      (smooth_reached _ _ _)
    rw [List.mem_singleton] at he
    cases he
    exact hm rfl
  | clock now =>
    refine ⟨?_, hfailing, hchannel⟩
    rw [worldMoves, hworld]
    exact smooth_nil
  | proceed i fault =>
    obtain rfl : fault = none := hm
    rcases r.proceed_cases i none with ⟨hmoves, hstep⟩ |
      ⟨call, op, a, recorder, hcall, hop, hanswer, hmoves, hstep⟩ |
      ⟨call, hcall, hop, hmoves, hstep⟩ <;> rw [hmoves, hstep]
    · exact ⟨smooth_nil, hfailing, hchannel⟩
    · obtain ⟨⟨results, rfl⟩, hwilling⟩ := perform_willing hfailing hchannel hanswer
      refine ⟨?_, hwilling⟩
      have hevents : r.world.events (.proceed i (.ok results)) =
          Event.left i call.stage (.ok results) ++
            Event.reached i call.request (r.world.stretch i call (.ok results)).2 := by
        simp [World.events, hcall, World.canRun, hop]
      rw [hworld, hevents]
      exact (smooth_left _ _ _).append (smooth_reached _ _ _)
    · refine ⟨?_, hfailing, hchannel⟩
      rw [hworld]
      simp only [World.events, hcall]
      split
      · exact (smooth_left _ _ _).append (smooth_reached _ _ _)
      · exact smooth_nil

theorem smooth_trace (id : String) (checked : Checked) (timer : Timer) (moves : List (Move α))
    (hmoves : ∀ m ∈ moves, m.Smooth) :
    Smooth ((created id checked timer [] : Rig α).trace moves) := by
  have hrun : ∀ r : Rig α, r.recorder.failing = [] → r.recorder.channel = none →
      Smooth (r.trace moves) := by
    induction moves with
    | nil => exact fun _ _ _ ↦ smooth_nil
    | cons m moves ih =>
      intro r hfailing hchannel
      obtain ⟨hevents, hfailing', hchannel'⟩ :=
        smooth_step (hmoves m List.mem_cons_self) hfailing hchannel
      exact hevents.append
        (ih (fun m' hm' ↦ hmoves m' (List.mem_cons_of_mem m hm')) _ hfailing' hchannel')
  exact hrun _ rfl rfl

/-- What becomes of the watermarks of a run. -/
structure HeldBack (r : Rig α) (t : History α α) : Prop where
  /-- Before each forwarded watermark, all items taken have been emitted. -/
  results : ∀ (before after : Journal α) (w : Watermark),
    r.recorder.journal = before ++ Entry.forwarded w :: after →
      before.emitted.length = before.processed.length
  /-- All accepted watermarks have been forwarded, except those that a later one of their bundle has
  replaced and the one still held. -/
  settled : (∀ i close v, r.world.stage? i ≠ some (.releasing close v)) →
    r.recorder.journal.watermarks ++ r.world.coordinator.slot.held.toList =
      Acceptance.survivors (Ledger.after t).accepted
  /-- While a close lets a watermark go, that one is missing too, and none is held. -/
  releasing : ∀ i close v, r.world.stage? i = some (.releasing close v) →
    r.world.coordinator.slot.held = none ∧ r.recorder.journal.watermarks ++ [v] =
      Acceptance.survivors (Ledger.after t).accepted
  sublist : r.recorder.journal.watermarks.Sublist ((accepted t).map Prod.snd)
  /-- Nothing is held once no bundle is open and no call waits for a collaborator. -/
  empty : r.world.coordinator.slot.isOpen = false →
    (∀ i s, r.world.stage? i = some s → s.operation? = none) →
    r.world.coordinator.slot.held = none
  terminal : ∀ v, r.world.coordinator.slot.held = some v → v.isTerminal = false
  sorted : (offered t).Pairwise (· ≤ ·) → r.recorder.journal.watermarks.Pairwise (· ≤ ·)

/-- Watermarks wait for the results of their bundles, and only what a bundle has replaced is
missing. -/
theorem heldBack_run (id : String) (checked : Checked) (timer : Timer) (moves : List (Move α))
    (hmoves : ∀ m ∈ moves, m.Smooth) :
    HeldBack ((created id checked timer []).run moves)
      ((created id checked timer []).trace moves) := by
  have hsmooth := smooth_trace id checked timer moves hmoves
  have hreaches := reaches id checked timer [] moves
  have hrecords := records_run id checked timer [] moves
  have hholding := hreaches.holding hsmooth
  have horderly := hreaches.orderly (World.orderly_created id checked timer)
  have hconducts := hreaches.conducts
  generalize (created id checked timer []).run moves = r at *
  generalize (created id checked timer []).trace moves = t at *
  have hbalance : r.recorder.journal.watermarks ++ r.world.acting.2.stage.outgoing.toList ++
      r.world.coordinator.slot.held.toList = Acceptance.survivors (Ledger.after t).accepted := by
    rw [hrecords.journal]
    exact hholding.books.balance
  have hsublist : r.recorder.journal.watermarks.Sublist ((accepted t).map Prod.snd) := by
    rw [← accepted_after]
    refine List.Sublist.trans ?_ (Acceptance.survivors_sublist _)
    rw [← hbalance, List.append_assoc]
    exact List.sublist_append_left _ _
  -- a call that acts stands among the calls
  have hstage (hacts : r.world.acting.2.stage.operation?.isSome = true) :
      r.world.stage? r.world.acting.1 = some r.world.acting.2.stage :=
    World.stage?_of_call (World.calls_acting hacts)
  constructor
  · intro before after w hjournal
    rw [hrecords.journal] at hjournal
    obtain ⟨past, i, results, future, rfl, rfl⟩ := exists_split_of_forwarded hjournal
    exact (emitted_eq_processed_iff_of_forward hconducts.conduct.lawful hrecords.faithful).mpr
      hsmooth.of_append.1.not_undelivered
  · intro hnone
    have houtgoing : r.world.acting.2.stage.outgoing = none := by
      cases hs : r.world.acting.2.stage with
      | releasing close v =>
        have hacts := hstage (by rw [hs]; rfl)
        rw [hs] at hacts
        exact absurd hacts (hnone _ close v)
      | _ => rfl
    simpa [houtgoing] using hbalance
  · intro i close v hs
    obtain ⟨call, hcall, hrelease⟩ := Option.map_eq_some_iff.mp hs
    have hacting := horderly.acting_of_operation hcall (by rw [hrelease]; rfl)
    rw [hacting] at hconducts hholding hbalance
    rw [hrelease] at hconducts hholding hbalance
    have hheld := hholding.held_eq_none hconducts rfl hconducts.fits.2.2
    refine ⟨hheld, ?_⟩
    simpa [hheld, Stage.outgoing] using hbalance
  · exact hsublist
  · intro hopen hidle
    refine hholding.held_eq_none hconducts ?_ hopen
    cases hs : r.world.acting.2.stage with
    | finishing | draining | emitting =>
      have hacts := hidle _ _ (hstage (by rw [hs]; rfl))
      rw [hs] at hacts
      cases hacts
    | _ => rfl
  · exact hholding.books.terminal
  · intro hsorted
    exact (hreaches.arrives.sorted hsorted).sublist hsublist

/-- Two watermarks behind one item, the later in place of the earlier, and a third after its
bundle. -/
def threeWatermarks : List (Move Nat) :=
  [.issue .start, .proceed 0 none, .issue (.submit 1), .proceed 1 none, .proceed 1 none,
    .issue (.watermark ⟨5⟩), .issue (.watermark ⟨6⟩), .issue .endInput, .proceed 4 none,
    .proceed 4 none, .proceed 4 none, .proceed 4 none, .issue (.watermark ⟨7⟩), .proceed 5 none]

theorem heldBack_threeWatermarks :
    (∀ m ∈ threeWatermarks, m.Smooth) ∧
      (accepted (plain.trace threeWatermarks)).map Prod.snd = [⟨5⟩, ⟨6⟩, ⟨7⟩] ∧
      (plain.run threeWatermarks).recorder.journal.watermarks = [⟨6⟩, ⟨7⟩] ∧
      HeldBack (plain.run threeWatermarks) (plain.trace threeWatermarks) := by
  have hmoves : ∀ m ∈ threeWatermarks, m.Smooth := by simp [threeWatermarks, Move.Smooth]
  exact ⟨hmoves, rfl, rfl, heldBack_run "plain" (Limits.check {})
    { kind := .manual false, now := 0 } threeWatermarks hmoves⟩

end Rig

end Bundling
