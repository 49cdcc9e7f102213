import Bundling.Proofs.Serial
import Bundling.Proofs.TimerLifetime

/-!
What a submit that fails leaves behind. It is turned away before anything happens; or the unit does
not start a bundle for it, and the slot that it has opened is shut again; or the unit does not take
its item, and the bundle stays open for the next one. `Submitting` follows the call from stage to
stage for as long as it holds the lock, while other calls may only come to stand in line. Past the
moment at which the unit takes the item, the submit is one more close.
-/

set_option autoImplicit false
set_option relaxedAutoImplicit false

namespace Bundling

namespace History

variable {α β : Type} {i : Nat} {q : Request α} {s : Stage α β} {a : Except Failure (List β)}

/-- What has passed between the calls and the collaborators. -/
def exchanges (h : History α β) : History α β :=
  h.filter fun
    | .asked _ _ | .answered _ _ _ => true
    | .issued _ _ | .replied _ _ _ => false

theorem exchanges_append (h new : History α β) :
    exchanges (h ++ new) = exchanges h ++ exchanges new :=
  List.filter_append h new

theorem exchanges_left : exchanges (Event.left i s a) = Event.left i s a := by
  cases s <;> rfl

theorem exchanges_reached :
    exchanges (Event.reached i q s) = s.operation?.toList.map (.asked i) := by
  cases s <;> rfl

/-- What passes between a call and the unit so that a bundle is open. -/
def opening (i : Nat) (isOpen : Bool) : History α β :=
  if isOpen then [] else [.asked i .startBundle, .answered i .startBundle (.ok [])]

end History

namespace Coordinator

open Event

variable {α β : Type} {c : Coordinator} {i : Nat} {q : Request α} {s : Stage α β}
  {a : Except Failure (List β)} {out : Coordinator × Stage α β}

/-- A submit does not look at the timer. -/
theorem begin_submit_timer (c : Coordinator) (timer : Timer) (i : Nat) (x : α) :
    (({ c with timer := timer } : Coordinator).begin i (.submit x) : Coordinator × Stage α β) =
      ({ (c.begin i (.submit x) : Coordinator × Stage α β).1 with timer := timer },
        (c.begin i (.submit x) : Coordinator × Stage α β).2) := by
  have hearly : ({ c with timer := timer } : Coordinator).early (.submit x) =
      c.early (.submit x) := rfl
  cases hreply : c.early (.submit x) with
  | some r => rw [begin_of_early i hreply, begin_of_early i (hearly.trans hreply)]
  | none =>
    rw [begin_eq_ask i (by simp) (by simp) hreply,
      begin_eq_ask i (by simp) (by simp) (hearly.trans hreply)]
    have henter (d : Coordinator) :
        (({ d with timer := timer } : Coordinator).enter i (.submit x) : Coordinator × Stage α β) =
          ({ (d.enter i (.submit x) : Coordinator × Stage α β).1 with timer := timer },
            (d.enter i (.submit x) : Coordinator × Stage α β).2) := by
      have hrunning : ({ d with timer := timer } : Coordinator).running "submit" =
          d.running "submit" := rfl
      unfold enter
      simp only [hrunning]
      cases d.running "submit" with
      | error f => rfl
      | ok u =>
        dsimp only
        split
        · rfl
        · split <;> rfl
    unfold ask
    dsimp only
    split
    case isFalse => rfl
    case isTrue => exact henter { c with lock := (c.lock.ask i).2 }

/-- A submit that finds a bundle open goes straight on to the unit, and changes nothing. -/
theorem begin_submit_of_open (hlatched : c.latched = none) (hphase : c.phase = .running)
    (hunit : c.hasUnit = true) (hopen : c.slot.isOpen = true) (hlock : c.lock.holder = none)
    (i : Nat) (x : α) :
    (c.begin i (.submit x) : Coordinator × Stage α β) = (c.inLine i, .processing x) := by
  have hearly := (c.early_eq_none_iff (q := .submit x) (.inl ⟨x, rfl⟩)).mpr ⟨hlatched, hphase⟩
  have hrunning : (c.inLine i).running "submit" = .ok () :=
    ((c.inLine i).running_eq_ok_iff "submit").mpr ⟨hlatched, hphase⟩
  rw [begin_of_free i (by simp) (by simp) hearly hlock]
  unfold enter
  simp only [hrunning]
  simp [inLine, hunit, hopen]

/-- A submit that is turned away before it asks for the lock is turned away with what it would have
met there. -/
theorem refusal?_of_early {x : α} {r : Reply} (hearly : c.early (.submit x) = some r) :
    ∃ f, r = .failed f ∧ (Request.submit x).refusal? c = some f := by
  unfold Request.refusal? Request.refusalTo?
  unfold early at hearly
  cases hrunning : c.running "submit" with
  | error f =>
    simp only [hrunning, Option.some.injEq] at hearly
    exact ⟨f, hearly.symm, rfl⟩
  | ok u => simp [hrunning] at hearly

/-- A turn that leaves nothing to be seen is that of a stop that finds nothing to close and comes to
stand in line again. -/
theorem Turn.of_silent (h : Turn i q c s a out) (hleft : left i s a = [])
    (hreached : reached i q out.2 = []) :
    out.1.slot = c.slot ∧ out.1.tally = c.tally := by
  cases h with
  | idles _ _ _ _ _ _ hparts =>
    cases hparts with
    | departs _ _ _ _ _ _ hdeparts =>
      cases hdeparts with
      | waits => exact ⟨ceased_slot _, ceased_tally _⟩
      | _ => cases hreached
    | _ => cases hreached
  | _ =>
    first
    | exact absurd hleft (List.cons_ne_nil _ _)
    | exact absurd hreached (List.cons_ne_nil _ _)

end Coordinator

namespace World

open History

variable {α β : Type} {w v v' : World α β} {x : α} {f : Failure} {s : Stage α β}
  {t new : History α β}

/-- How a submit has failed that a world without any call in flight was asked for, what has passed
between it and the collaborators, and what it has left behind. -/
inductive SubmitFails (w : World α β) (x : α) (f : Failure) (v : World α β) (t : History α β) : Prop
  /-- It has been turned away, by the phase, by a latched failure or because the unit is gone. -/
  | refused (hrefused : (Request.submit x).refusal? w.coordinator = some f)
      (hexchanges : exchanges t = [])
      (hslot : v.coordinator.slot = w.coordinator.slot)
      (htally : v.coordinator.tally = w.coordinator.tally)
  /-- The unit has not started a bundle. -/
  | startsNot (hadmitted : (Request.submit x).refusal? w.coordinator = none)
      (hexchanges : exchanges t = [.asked w.calls.length .startBundle,
        .answered w.calls.length .startBundle (.error f)])
      (hslot : v.coordinator.slot = w.coordinator.slot)
      (htally : v.coordinator.tally = w.coordinator.tally)
  /-- The unit has not taken the item. The bundle is open, and the next submit goes on with it. -/
  | processesNot (hadmitted : (Request.submit x).refusal? w.coordinator = none)
      (hexchanges : exchanges t = opening w.calls.length w.coordinator.slot.isOpen ++
        [.asked w.calls.length (.process x),
          .answered w.calls.length (.process x) (.error f)])
      (hslot : v.coordinator.slot = { w.coordinator.slot with isOpen := true })
      (htally : v.coordinator.tally =
        if w.coordinator.slot.isOpen then w.coordinator.tally
        else w.coordinator.tally.bundleStarted)
      (hnext : v.Idle → ∀ y, v.issue (.submit y) =
        ⟨v.coordinator.inLine v.calls.length, v.calls ++ [⟨.submit y, .processing y⟩]⟩)
  /-- The unit has taken the item: the submit has failed as the close of a full bundle does. -/
  | closesNot (hadmitted : (Request.submit x).refusal? w.coordinator = none)
      (haccepted : Event.answered w.calls.length (.process x) (.ok []) ∈ t)

/-- While other calls only come to stand in line, a submit would still be let through. -/
structure Lenient (c : Coordinator) : Prop where
  latched : c.latched = none
  hasUnit : c.hasUnit = true
  phase : c.lock.queue = [] → c.phase = .running

/-- How far a submit is which a world without any call in flight was asked for; `t` is what has
happened since. -/
inductive Submitting (w : World α β) (x : α) (v : World α β) (t : History α β) : Stage α β → Prop
  | starting (hadmitted : (Request.submit x).refusal? w.coordinator = none)
      (hlenient : Lenient v.coordinator) (hopen : w.coordinator.slot.isOpen = false)
      (hexchanges : exchanges t = [.asked w.calls.length .startBundle])
      (hslot : v.coordinator.slot = { w.coordinator.slot with isOpen := true })
      (htally : v.coordinator.tally = w.coordinator.tally) : Submitting w x v t (.starting x)
  | processing (hadmitted : (Request.submit x).refusal? w.coordinator = none)
      (hlenient : Lenient v.coordinator)
      (hexchanges : exchanges t = opening w.calls.length w.coordinator.slot.isOpen ++
        [.asked w.calls.length (.process x)])
      (hslot : v.coordinator.slot = { w.coordinator.slot with isOpen := true })
      (htally : v.coordinator.tally =
        if w.coordinator.slot.isOpen then w.coordinator.tally
        else w.coordinator.tally.bundleStarted) : Submitting w x v t (.processing x)
  | accepted (s : Stage α β) (hadmitted : (Request.submit x).refusal? w.coordinator = none)
      (haccepted : Event.answered w.calls.length (.process x) (.ok []) ∈ t) :
      Submitting w x v t s
  | failed (f : Failure)
      (h : t.getLast? = some (.replied w.calls.length (.submit x) (.failed f)) →
        SubmitFails w x f v t) : Submitting w x v t (.ended (.failed f))

theorem Submitting.submitFails (h : Submitting w x v t s) (hs : s = .ended (.failed f))
    (hlast : t.getLast? = some (.replied w.calls.length (.submit x) (.failed f))) :
    SubmitFails w x f v t := by
  cases h with
  | starting | processing => cases hs
  | accepted _ hadmitted haccepted => exact .closesNot hadmitted haccepted
  | failed g h =>
    cases hs
    exact h hlast

/-! ### Other calls -/

theorem Lenient.joins {c d : Coordinator} (h : Lenient c) {q : Request α}
    (hjoins : Coordinator.Joins q c d s) {i : Nat} (hlock : c.lock.holder = some i) (n : Nat) :
    Lenient (d.inLine n) := by
  obtain ⟨phase, registration, timer, notices, rfl⟩ := hjoins.frame
  refine ⟨h.latched, h.hasUnit, fun hqueue ↦ ?_⟩
  simp [Coordinator.inLine, Lock.ask, hlock] at hqueue

/-- What other calls do while a submit is under way, or after it. -/
theorem Submitting.bystander (h : Submitting w x v t s)
    (hslot : v'.coordinator.slot = v.coordinator.slot)
    (htally : v'.coordinator.tally = v.coordinator.tally)
    (hlenient : s.operation?.isSome = true → Lenient v.coordinator → Lenient v'.coordinator)
    (hexchanges : exchanges new = [])
    (hlast : ∀ f, (t ++ new).getLast? ≠ some (.replied w.calls.length (.submit x) (.failed f))) :
    Submitting w x v' (t ++ new) s := by
  have hsame : exchanges (t ++ new) = exchanges t := by
    rw [exchanges_append, hexchanges, List.append_nil]
  cases h with
  | starting hadmitted hlen hopen hex hs ht =>
    exact .starting hadmitted (hlenient rfl hlen) hopen (hsame.trans hex) (hslot.trans hs)
      (htally.trans ht)
  | processing hadmitted hlen hex hs ht =>
    exact .processing hadmitted (hlenient rfl hlen) (hsame.trans hex) (hslot.trans hs)
      (htally.trans ht)
  | accepted s hadmitted haccepted =>
    exact .accepted s hadmitted (List.mem_append_left _ haccepted)
  | failed f => exact .failed f fun h ↦ absurd h (hlast f)

theorem SubmitFails.of_busy (h : SubmitFails w x f v t)
    (hslot : v'.coordinator.slot = v.coordinator.slot)
    (htally : v'.coordinator.tally = v.coordinator.tally) (hbusy : ¬ v'.Idle) :
    SubmitFails w x f v' t := by
  cases h with
  | refused hrefused hex hs ht => exact .refused hrefused hex (hslot.trans hs) (htally.trans ht)
  | startsNot hadmitted hex hs ht =>
    exact .startsNot hadmitted hex (hslot.trans hs) (htally.trans ht)
  | processesNot hadmitted hex hs ht =>
    exact .processesNot hadmitted hex (hslot.trans hs) (htally.trans ht) fun hidle ↦
      absurd hidle hbusy
  | closesNot hadmitted haccepted => exact .closesNot hadmitted haccepted

theorem SubmitFails.retimes (h : SubmitFails w x f v t) (timer : Timer) :
    SubmitFails w x f { v with coordinator := { v.coordinator with timer := timer } } t := by
  cases h with
  | refused hrefused hex hs ht => exact .refused hrefused hex hs ht
  | startsNot hadmitted hex hs ht => exact .startsNot hadmitted hex hs ht
  | processesNot hadmitted hex hs ht hnext =>
    refine .processesNot hadmitted hex hs ht fun hidle y ↦ ?_
    have hissue := hnext hidle y
    unfold World.issue at hissue ⊢
    dsimp only at hissue ⊢
    rw [World.mk.injEq] at hissue
    have hstage : (v.coordinator.begin v.calls.length (.submit y) : _ × Stage α β).2 =
        .processing y := by simpa using hissue.2
    rw [Coordinator.begin_submit_timer, hissue.1, hstage]
    rfl
  | closesNot hadmitted haccepted => exact .closesNot hadmitted haccepted

theorem Submitting.retimes (h : Submitting w x v t s) (timer : Timer) :
    Submitting w x { v with coordinator := { v.coordinator with timer := timer } } t s := by
  cases h with
  | starting hadmitted hlen hopen hex hs ht =>
    exact .starting hadmitted ⟨hlen.latched, hlen.hasUnit, hlen.phase⟩ hopen hex hs ht
  | processing hadmitted hlen hex hs ht =>
    exact .processing hadmitted ⟨hlen.latched, hlen.hasUnit, hlen.phase⟩ hex hs ht
  | accepted s hadmitted haccepted => exact .accepted s hadmitted haccepted
  | failed f h => exact .failed f fun hlast ↦ (h hlast).retimes timer

/-- The turn of another call comes after the submit, if that does not wait for the close of a full
bundle. -/
theorem Submitting.overtaken (h : Submitting w x v t s) {i : Nat} {q : Request α} {r : Stage α β}
    {a : Except Failure (List β)} {out : Coordinator × Stage α β} (hi : w.calls.length ≠ i)
    (hs : s.operation? = none) (hturn : Coordinator.Turn i q v.coordinator r a out)
    (hout : v'.coordinator = out.1) (hbusy : out.2.reply? = none → ¬ v'.Idle) :
    Submitting w x v' (t ++ (Event.left i r a ++ Event.reached i q out.2)) s := by
  cases h with
  | starting | processing => cases hs
  | accepted s hadmitted haccepted =>
    exact .accepted s hadmitted (List.mem_append_left _ haccepted)
  | failed f h =>
    refine .failed f fun hlast ↦ ?_
    cases hnew : Event.left i r a ++ Event.reached i q out.2 with
    | nil =>
      obtain ⟨hleft, hreached⟩ := List.append_eq_nil_iff.mp hnew
      obtain ⟨hslot, htally⟩ := hturn.of_silent hleft hreached
      rw [hnew, List.append_nil] at hlast
      rw [List.append_nil]
      refine (h hlast).of_busy ((congrArg Coordinator.slot hout).trans hslot)
        ((congrArg Coordinator.tally hout).trans htally) (hbusy ?_)
      cases hreply : out.2.reply? with
      | none => rfl
      | some r =>
        unfold Event.reached at hreached
        cases hop : out.2.operation? <;> simp [hop, hreply] at hreached
    | cons e rest =>
      have hmem : Event.replied w.calls.length (.submit x) (.failed f) ∈
          Event.left i r a ++ Event.reached i q out.2 := by
        rw [hnew]
        rw [hnew, List.getLast?_append_of_ne_nil _ (List.cons_ne_nil e rest)] at hlast
        exact List.mem_of_getLast? hlast
      exact absurd (Event.eq_of_replied_mem_turn hmem).1 hi

/-! ### The submit itself -/

theorem refusal?_eq_none_of_admitted {c : Coordinator} (h : (Request.submit x).Admitted c) :
    (Request.submit x).refusal? c = none := by
  obtain ⟨hlatched, hphase, hunit⟩ := h
  unfold Request.refusal? Request.refusalTo?
  rw [(c.running_eq_ok_iff "submit").mpr ⟨hlatched, hphase⟩]
  exact if_pos hunit

/-- The first turn of the submit. -/
theorem Submitting.of_turn {a : Except Failure (List β)} {out : Coordinator × Stage α β}
    (hturn : Coordinator.Turn w.calls.length (.submit x) (w.coordinator.inLine w.calls.length)
      .queued a out) (calls : List (Call α β)) :
    Submitting w x ⟨out.1, calls⟩ (.issued w.calls.length (.submit x) ::
      Event.reached w.calls.length (.submit x) out.2) out.2 := by
  cases hturn with
  | refused _ f hrefused => exact .failed f fun _ ↦ .refused hrefused rfl rfl rfl
  | continues _ y hq hadmitted hopen =>
    cases hq
    have hopen : w.coordinator.slot.isOpen = true := hopen
    have hslot : w.coordinator.slot = { w.coordinator.slot with isOpen := true } := by
      rw [← hopen]
    refine .processing (refusal?_eq_none_of_admitted hadmitted)
      ⟨hadmitted.1, hadmitted.2.2, fun _ ↦ hadmitted.2.1⟩ ?_ hslot ?_
    · rw [hopen]
      rfl
    · rw [if_pos hopen]
      rfl
  | starts _ y hq hadmitted hopen =>
    cases hq
    exact .starting (refusal?_eq_none_of_admitted hadmitted)
      ⟨hadmitted.1, hadmitted.2.2, fun _ ↦ hadmitted.2.1⟩ hopen rfl rfl rfl
  | closes _ _ hq | idles _ _ _ hq => cases hq
  | passes _ hq | opens _ hq | holds _ _ hq | forwards _ _ hq => cases hq

/-- The submit is made. -/
theorem submitting_issue (hlock : w.coordinator.lock = {}) (x : α) :
    ∃ s, (w.issue (.submit x)).calls = w.calls ++ [⟨.submit x, s⟩] ∧
      Submitting w x (w.issue (.submit x)) (w.events (.issue (.submit x))) s := by
  refine ⟨(w.coordinator.begin w.calls.length (.submit x) : _ × Stage α β).2, rfl, ?_⟩
  have hissue : w.issue (.submit x) =
      ⟨(w.coordinator.begin w.calls.length (.submit x) : _ × Stage α β).1,
        w.calls ++ [⟨.submit x, (w.coordinator.begin w.calls.length (.submit x)).2⟩]⟩ := rfl
  have hevents : w.events (.issue (.submit x)) = .issued w.calls.length (.submit x) ::
      Event.reached w.calls.length (.submit x)
        (w.coordinator.begin w.calls.length (.submit x) : _ × Stage α β).2 := rfl
  rw [hissue, hevents]
  cases hearly : w.coordinator.early (.submit x) with
  | some r =>
    obtain ⟨f, rfl, hrefused⟩ := Coordinator.refusal?_of_early hearly
    rw [Coordinator.begin_of_early w.calls.length hearly]
    exact .failed f fun _ ↦ .refused hrefused rfl rfl rfl
  | none =>
    rw [Coordinator.begin_of_free w.calls.length (by simp) (by simp) hearly (by rw [hlock])]
    exact .of_turn (Coordinator.turn_enter _ w.calls.length (.submit x) (.ok [])) _

/-- After it has failed with nobody behind it in line, the next submit finds the bundle open. -/
theorem Lenient.next {c : Coordinator} (h : Lenient c) (hopen : c.slot.isOpen = true)
    (hv : v.coordinator = c.unlock) (horderly : v.Orderly) (hidle : v.Idle) (y : α) :
    v.issue (.submit y) =
      ⟨v.coordinator.inLine v.calls.length, v.calls ++ [⟨.submit y, .processing y⟩]⟩ := by
  have hlock := horderly.lock_of_idle hidle
  have hqueue : c.lock.queue = [] := by
    refine Lock.queue_of_release_holder ?_
    rw [hv] at hlock
    exact congrArg Lock.holder hlock
  have hbegin : (v.coordinator.begin v.calls.length (.submit y) : _ × Stage α β) =
      (v.coordinator.inLine v.calls.length, .processing y) := by
    refine Coordinator.begin_submit_of_open ?_ ?_ ?_ ?_ (by rw [hlock]) _ y <;> rw [hv]
    exacts [h.latched, h.phase hqueue, h.hasUnit, hopen]
  unfold World.issue
  rw [hbegin]

/-- The submit goes on. -/
theorem Submitting.turns (h : Submitting w x v t s) {a : Except Failure (List β)}
    {out : Coordinator × Stage α β}
    (hturn : Coordinator.Turn w.calls.length (.submit x) v.coordinator s a out)
    (hout : v'.coordinator = out.1) (horderly : v'.Orderly) :
    Submitting w x v' (t ++ (Event.left w.calls.length s a ++
      Event.reached w.calls.length (.submit x) out.2)) out.2 := by
  have hexchanges : exchanges (t ++ (Event.left w.calls.length s a ++
      Event.reached w.calls.length (.submit x) out.2)) =
      exchanges t ++ (Event.left w.calls.length s a ++
        out.2.operation?.toList.map (.asked w.calls.length)) := by
    rw [exchanges_append, exchanges_append, exchanges_left, exchanges_reached]
  cases h with
  | starting hadmitted hlenient hopen hex hslot htally =>
    rw [hex] at hexchanges
    cases hturn with
    | startsNot _ f =>
      refine .failed f fun _ ↦ .startsNot hadmitted hexchanges ?_ ?_ <;> rw [hout]
      · change v.coordinator.slot.tryClose.2 = w.coordinator.slot
        rw [hslot]
        change ({ w.coordinator.slot with isOpen := false } : Slot) = _
        rw [← hopen]
      · exact htally
    | started _ results notices =>
      refine .processing hadmitted ?_ ?_ ?_ ?_
      · rw [hout]
        exact ⟨hlenient.latched, hlenient.hasUnit, hlenient.phase⟩
      · rw [hexchanges, hopen]
        rfl
      · rw [hout]
        exact hslot
      · rw [hout, hopen, ← htally]
        rfl
  | processing hadmitted hlenient hex hslot htally =>
    rw [hex, List.append_assoc] at hexchanges
    cases hturn with
    | processesNot _ f =>
      refine .failed f fun _ ↦ .processesNot hadmitted hexchanges ?_ ?_ ?_
      · rw [hout]
        exact hslot
      · rw [hout]
        exact htally
      · exact hlenient.next (by rw [hslot]) hout horderly
    | accepts | fills | fillsNone =>
      exact .accepted _ hadmitted
        (List.mem_append_right _ (List.mem_append_left _ (List.mem_singleton_self _)))
  | accepted s hadmitted haccepted =>
    exact .accepted _ hadmitted (List.mem_append_left _ haccepted)
  | failed f => cases hturn.reply?_eq_none

/-! ### Runs -/

/-- The submit that a world without any call in flight was asked for, among all calls. -/
def Attempting (w : World α β) (x : α) (v : World α β) (t : History α β) : Prop :=
  ∃ s, v.calls[w.calls.length]? = some ⟨.submit x, s⟩ ∧ Submitting w x v t s

theorem Attempting.advance (h : Attempting w x v t) (horderly : v.Orderly)
    (horderly' : v'.Orderly) (hadvance : Advance v v' new) : Attempting w x v' (t ++ new) := by
  obtain ⟨s, hcall, h⟩ := h
  have hlt := (List.getElem?_eq_some_iff.mp hcall).1
  cases hadvance with
  | declines q r hdeclines =>
    refine ⟨s, (List.getElem?_append_left hlt).trans hcall,
      h.bystander rfl rfl (fun _ ↦ id) rfl fun f hlast ↦ ?_⟩
    rw [List.getLast?_append_of_ne_nil _ (by simp)] at hlast
    have hsame : v.calls.length = w.calls.length := (Event.replied.inj (Option.some.inj hlast)).1
    rw [hsame] at hlt
    exact Nat.lt_irrefl _ hlt
  | joins q d r hjoins =>
    refine ⟨s, (List.getElem?_append_left hlt).trans hcall,
      h.bystander hjoins.slot hjoins.tally (fun hop hlenient ↦ ?_) rfl ?_⟩
    · exact hlenient.joins hjoins (horderly.holder_of_operation (stage?_of_call hcall) hop) _
    · simp
  | retimes timer =>
    rw [List.append_nil]
    exact ⟨s, hcall, h.retimes timer⟩
  | turns i call a out hcall' hlock hturn =>
    by_cases hi : w.calls.length = i
    · subst hi
      rw [hcall, Option.some.injEq] at hcall'
      subst hcall'
      exact ⟨out.2, by simp [hlt], h.turns hturn rfl horderly'⟩
    · have hs : s.operation? = none := by
        cases hop : s.operation?.isSome with
        | false => simpa using hop
        | true =>
          have hholder := horderly.holder_of_operation (stage?_of_call hcall) hop
          rw [hlock, Option.some.injEq] at hholder
          exact absurd hholder.symm hi
      refine ⟨s, (List.getElem?_set_ne (Ne.symm hi)).trans hcall,
        h.overtaken hi hs hturn rfl fun hreply hidle ↦ ?_⟩
      have hlt' := (List.getElem?_eq_some_iff.mp hcall').1
      have hended := hidle { call with stage := out.2 } (List.mem_set hlt' _)
      rw [hreply] at hended
      cases hended

theorem Attempting.reaches (h : Attempting w x v t) (horderly : v.Orderly)
    (hreaches : Reaches v v' new) : Attempting w x v' (t ++ new) := by
  induction hreaches with
  | start =>
    rw [List.append_nil]
    exact h
  | @advance u u' t' new hbefore hadvance ih =>
    rw [← List.append_assoc]
    exact ih.advance (hbefore.orderly horderly) ((hbefore.advance hadvance).orderly horderly)
      hadvance

/-- A submit that fails, on a coordinator without any call in flight, whatever has failed before and
whatever calls are made in the meantime. If it is turned away or no bundle is started for it, the
slot and all counters are as they were and no other collaborator has been asked for anything. If the
unit does not take the item, a bundle is open, started if it was not, and nothing else has changed;
the next submit goes on with that bundle. -/
theorem submit_fails (id : String) (checked : Checked) (timer : Timer) (past : List (Move α β))
    (hidle : ((created id checked timer : World α β).run past).Idle) (x : α)
    (moves : List (Move α β)) (f : Failure) :
    let w : World α β := (created id checked timer).run past
    let v := w.run (.issue (.submit x) :: moves)
    let t := w.trace (.issue (.submit x) :: moves)
    t.getLast? = some (.replied w.calls.length (.submit x) (.failed f)) →
      SubmitFails w x f v t := by
  intro w v t hlast
  have hcreated := orderly_created (α := α) (β := β) id checked timer
  have hpast := reaches_run hcreated past
  have horderly : w.Orderly := hpast.orderly hcreated
  have hissue := Reaches.start.step horderly (.issue (.submit x))
  have hrest := reaches_run (hissue.orderly horderly) moves
  obtain ⟨s, hcalls, hstart⟩ := submitting_issue (horderly.lock_of_idle hidle) x
  obtain ⟨s', hcall, hsubmitting⟩ : Attempting w x v t :=
    Attempting.reaches ⟨s, by simp [hcalls], hstart⟩ (hissue.orderly horderly) hrest
  have hv : Reaches w v t := hissue.trans hrest
  have hended := (hpast.trans hv).ended_of_replied
    (List.mem_append_right _ (List.mem_of_getLast? hlast))
  exact hsubmitting.submitFails (Option.some.inj ((stage?_of_call hcall).symm.trans hended)) hlast

/-- The unit starts a bundle and does not take the item. -/
def rejected : List (Move Nat Nat) :=
  [.issue (.submit 1), .proceed 1 (.ok []), .proceed 1 (.error (.unit "process" "injected"))]

theorem submit_fails_rejected :
    let w := plain.run [.issue .start, .proceed 0 (.ok [])]
    w.Idle ∧ SubmitFails w 1 (.unit "process" "injected") (w.run rejected) (w.trace rejected) := by
  intro w
  have hidle : w.Idle := by decide
  have hfails := submit_fails "plain" (Limits.check {}) { kind := .manual false, now := 0 }
    [.issue .start, .proceed 0 (.ok [])] hidle 1
    [.proceed 1 (.ok []), .proceed 1 (.error (.unit "process" "injected"))]
    (.unit "process" "injected")
  exact ⟨hidle, hfails rfl⟩

end World

end Bundling
