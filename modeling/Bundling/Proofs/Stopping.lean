import Bundling.Proofs.HoldBack
import Bundling.Proofs.Latch

/-!
Submits against a stop, in runs without failures and without a direct shutdown. A stop publishes its
phase before it stands in line, and only a start that is opening the unit at that moment overwrites
it. Every submit has ended by then, so those that come after the start stand behind the stop, and
the coordinator has stopped when their turn comes.
-/

set_option autoImplicit false
set_option relaxedAutoImplicit false

namespace Bundling

open History

namespace Request

variable {α : Type} {c : Coordinator}

theorem refusal?_submit (x : α) (hlatched : c.latched = none) (hphase : c.phase ≠ .running) :
    (submit x).refusal? c = some (.refused (.notRunning "submit" c.phase)) := by
  simp [refusal?, refusalTo?, Coordinator.running, hlatched, hphase]

end Request

namespace Stage

variable {α β : Type}

/-- A submit that has ended because the coordinator does not run. -/
def TurnedAway (s : Stage α β) : Prop :=
  ∃ p : Phase, p ≠ .running ∧ s = .ended (.failed (.refused (.notRunning "submit" p)))

end Stage

namespace Coordinator

variable {α : Type} {c d : Coordinator} {i : Nat} {q : Request α} {s : Stage α α}
  {out : Coordinator × Stage α α}

/-! ### What a turn does to the phase -/

/-- A turn leaves the phase as it is, or stops the coordinator, or completes a start; the unit is
opened in the first phase only; and a stop is not over with its close before it has stopped the
coordinator. -/
structure Shifts (q : Request α) (c : Coordinator) (s : Stage α α)
    (out : Coordinator × Stage α α) : Prop where
  phase : out.1.phase = c.phase ∨ out.1.phase = .stopped ∨
    s = .opening ∧ out.2 ≠ .opening ∧ out.1.phase = .running
  opens : out.2 = .opening → c.phase = .created
  stops : q = .stop → s.isRelease = false →
    out.2.isRelease = true ∨ out.2.reply?.isSome = true → out.1.phase = .stopped

theorem Turn.shifts {a : Except Failure (List α)} (hout : Turn i q c s a out)
    (hsuits : Suits q s) : Shifts q c s out := by
  cases hout.course with
  | remains hsame hproceeds =>
    refine ⟨.inl hsame.phase, hproceeds.opens, fun hq hs hgone ↦ ?_⟩
    -- a stop that asks for the next thing to do is not over with its close
    have hasks := hproceeds.asks hq hsuits hs
    rcases hgone with hrelease | hended
    · exact absurd ((hproceeds.releases hrelease).symm.trans hs) (by simp)
    · exact absurd hended (by rw [Stage.reply?_eq_none_of_operation hasks]; simp)
  | enrolls hs h =>
    subst hs
    refine ⟨.inr (.inr ⟨rfl, by simp, h.phase⟩), fun h ↦ (by cases h), fun hq ↦ ?_⟩
    cases hsuits.symm.trans hq
  | departs _ _ _ _ _ h =>
    exact ⟨.inr (.inl h.stopped), fun hopening ↦ absurd hopening h.ne_opening,
      fun _ _ _ ↦ h.stopped⟩

/-! ### Submits -/

/-- A failure is latched only where a collaborator has failed. -/
theorem Turn.latched {a : Except Failure (List α)} (hout : Turn i q c s a out)
    (hsmooth : Smooth (Event.left i s a)) : out.1.latched = c.latched := by
  have hok {op : Operation α α} (hop : s.operation? = some op) := ok_of_smooth_left hsmooth hop
  cases hout with
  | idles _ _ _ _ _ _ hparts => exact hparts.latched
  | fillsNone _ _ _ _ _ hparts => exact hparts.latched
  | released _ _ _ _ hparts => exact hparts.latched
  | drained _ _ _ h => exact h.latched
  | emitted _ _ _ _ _ _ h => exact h.latched
  | finishesNot | drainsNot | emitsNot | releasesNot =>
    obtain ⟨_, hresults⟩ := hok rfl
    cases hresults
  | _ => rfl

/-- A submit whose turn comes is refused, or comes to the unit. -/
theorem Turn.submit_cases {x : α} {a : Except Failure (List α)}
    (hout : Turn i (.submit x) c .queued a out) :
    (∃ f, (Request.submit x).refusal? c = some f ∧ out.2 = .ended (.failed f)) ∨
      (Request.submit x).Admitted c ∧ out.2.operation?.isSome = true := by
  cases hout with
  | refused _ f hrefused => exact .inl ⟨f, hrefused, rfl⟩
  | continues _ _ _ hadmitted | starts _ _ _ hadmitted => exact .inr ⟨hadmitted, rfl⟩
  | passes _ hq | opens _ hq | holds _ _ hq | forwards _ _ hq => cases hq
  | closes _ _ hq | idles _ _ _ hq => cases hq

/-- A submit whose turn comes while the coordinator does not run is turned away. -/
theorem Turn.turnedAway {x : α} {a : Except Failure (List α)}
    (hout : Turn i (.submit x) c .queued a out) (hlatched : c.latched = none)
    (hphase : c.phase ≠ .running) : out.2.TurnedAway := by
  rcases hout.submit_cases with ⟨f, hrefused, hended⟩ | ⟨hadmitted, -⟩
  · rw [Request.refusal?_submit x hlatched hphase] at hrefused
    cases hrefused
    exact ⟨c.phase, hphase, hended⟩
  · exact absurd hadmitted.2.1 hphase

/-- A submit that asks for nothing when its turn comes is turned away. -/
theorem Turn.turnedAway_of_rest {x : α} {a : Except Failure (List α)}
    (hout : Turn i (.submit x) c .queued a out) (hlatched : c.latched = none)
    (hunit : c.phase = .running → c.hasUnit = true) (hrest : out.2.operation? = none) :
    out.2.TurnedAway := by
  by_cases hphase : c.phase = .running
  · rcases hout.submit_cases with ⟨f, hrefused, -⟩ | ⟨-, hasks⟩
    · simp [Request.refusal?, Request.refusalTo?, running, hlatched, hphase, hunit hphase]
        at hrefused
    · simp [hrest] at hasks
  · exact hout.turnedAway hlatched hphase

theorem Declines.turnedAway {x : α} {r : Reply} (h : Declines (.submit x) c r)
    (hlatched : c.latched = none) : (.ended r : Stage α α).TurnedAway := by
  have hearly := h.resolve_right (by simp)
  have hphase : c.phase ≠ .running := by
    intro hrunning
    rw [(early_eq_none_iff c (.inl ⟨x, rfl⟩)).mpr ⟨hlatched, hrunning⟩] at hearly
    cases hearly
  refine ⟨c.phase, hphase, ?_⟩
  simpa [early, running, hlatched, hphase, eq_comm] using hearly

theorem Joins.running_of_submit {x : α} (h : Joins (.submit x) c d s) : c.phase = .running := by
  cases h with
  | asks _ _ hearly => exact ((early_eq_none_iff c (.inl ⟨x, rfl⟩)).mp hearly).2
  | stops hq | shutsDown hq => cases hq

end Coordinator

namespace World

variable {α : Type} {w w' : World α α} {t new : History α α} {i k : Nat} {x : α} {s : Stage α α}

/-! ### Submits before the first run -/

/-- Every submit has ended. -/
def NoSubmits (w : World α α) : Prop :=
  ∀ (i : Nat) (x : α) (s : Stage α α),
    w.calls[i]? = some ⟨.submit x, s⟩ → s.reply?.isSome = true

/-- What is known of the submits of a run: there are none while the unit is being opened, and one
that has asked for nothing waits, or has been turned away. -/
structure Submits (w : World α α) (t : History α α) : Prop where
  latched : w.coordinator.latched = none
  unopened : w.Unopened → w.coordinator.phase ≠ .running ∧ w.NoSubmits
  unasked : ∀ (i : Nat) (x : α) (s : Stage α α), w.calls[i]? = some ⟨.submit x, s⟩ →
    (∀ op, .asked i op ∉ t) → s = .queued ∨ s.TurnedAway

theorem NoSubmits.append (h : w.NoSubmits) (c : Coordinator) {other : Call α α}
    (hother : ∀ x, other.request = .submit x → other.stage.reply?.isSome = true) :
    (⟨c, w.calls ++ [other]⟩ : World α α).NoSubmits := by
  intro i x s hcall
  rcases call_append hcall with hcall | ⟨-, hcall⟩
  · exact h i x s hcall
  · subst hcall
    exact hother x rfl

theorem Submits.declines (h : w.Submits t) {q : Request α} {r : Reply}
    (hdeclines : Coordinator.Declines q w.coordinator r) :
    (⟨w.coordinator, w.calls ++ [⟨q, .ended r⟩]⟩ : World α α).Submits
      (t ++ [.issued w.calls.length q, .replied w.calls.length q r]) where
  latched := h.latched
  unopened := by
    intro hunopened
    obtain ⟨hphase, hnone⟩ := h.unopened (unopened_of_append id (by simp) hunopened)
    exact ⟨hphase, hnone.append _ fun _ _ ↦ rfl⟩
  unasked := by
    intro i x s hcall hunasked
    rcases call_append hcall with hcall | ⟨-, hcall⟩
    · exact h.unasked i x s hcall fun op hop ↦ hunasked op (List.mem_append_left _ hop)
    · cases hcall
      exact .inr (hdeclines.turnedAway h.latched)

theorem Submits.joins (h : w.Submits t) {q : Request α} {d : Coordinator}
    (hjoins : Coordinator.Joins q w.coordinator d s) (hq : q ≠ .shutdown) :
    (⟨d.inLine w.calls.length, w.calls ++ [⟨q, s⟩]⟩ : World α α).Submits
      (t ++ [Event.issued w.calls.length q]) := by
  obtain ⟨hlatched, hphase, hs⟩ : d.latched = none ∧
      (d.phase = w.coordinator.phase ∨ d.phase = .stopping) ∧ s = .queued := by
    cases hjoins with
    | asks => exact ⟨h.latched, .inl rfl, rfl⟩
    | stops => exact ⟨h.latched, .inr rfl, rfl⟩
    | shutsDown hshutdown => exact absurd hshutdown hq
  subst hs
  refine ⟨hlatched, fun hunopened ↦ ?_, fun i x s hcall hunasked ↦ ?_⟩
  · have hwas {p : Phase} (hp : p ≠ .stopping) (hd : d.phase = p) : w.coordinator.phase = p := by
      rcases hphase with hsame | hstopping
      · exact hsame.symm.trans hd
      · exact absurd (hd.symm.trans hstopping) hp
    obtain ⟨hne, hnone⟩ := h.unopened (unopened_of_append (hwas (by simp)) (by simp) hunopened)
    refine ⟨fun hrunning ↦ hne (hwas (by simp) hrunning), hnone.append _ fun x hx ↦ ?_⟩
    · -- a submit joins the line of a running coordinator only
      subst hx
      exact absurd hjoins.running_of_submit hne
  · rcases call_append hcall with hcall | ⟨-, hcall⟩
    · exact h.unasked i x s hcall fun op hop ↦ hunasked op (List.mem_append_left _ hop)
    · cases hcall
      exact .inl rfl

theorem Submits.turns (h : w.Submits t) (horderly : w.Orderly)
    (hunit : w.coordinator.phase = .running → w.coordinator.hasUnit = true) {call : Call α α}
    {a : Except Failure (List α)} {out : Coordinator × Stage α α}
    (hcall : w.calls[i]? = some call) (hlock : w.coordinator.lock.holder = some i)
    (hturn : Coordinator.Turn i call.request w.coordinator call.stage a out)
    (hsmooth : Smooth (Event.left i call.stage a)) :
    (⟨out.1, w.calls.set i { call with stage := out.2 }⟩ : World α α).Submits
      (t ++ (Event.left i call.stage a ++ Event.reached i call.request out.2)) := by
  have hshifts := hturn.shifts (horderly.suits call (List.mem_of_getElem? hcall))
  refine ⟨(hturn.latched hsmooth).trans h.latched, fun hunopened ↦ ?_, fun j x s hj hunasked ↦ ?_⟩
  · obtain ⟨hne, hnone⟩ := h.unopened (unopened_of_turn hcall hturn hunopened)
    refine ⟨fun hrunning ↦ ?_, fun j x s hj ↦ ?_⟩
    · rcases hshifts.phase with hsame | hstopped | ⟨hopening, hopened, -⟩
      · exact hne (hsame.symm.trans hrunning)
      · cases hstopped.symm.trans hrunning
      · -- the start is complete, and there has been no other
        rcases hunopened with hcreated | ⟨j, hj⟩
        · cases hcreated.symm.trans hrunning
        · rw [stage?_set hcall] at hj
          split at hj
          · exact hopened (Option.some.inj hj)
          · have hother := horderly.holder_of_operation hj rfl
            rw [hlock] at hother
            exact absurd (Option.some.inj hother).symm (by assumption)
    · rcases call_set hj with ⟨rfl, hsame⟩ | ⟨-, hj⟩
      · obtain ⟨q, stage⟩ := call
        cases hsame
        have hended := hnone j x stage hcall
        rw [hturn.reply?_eq_none] at hended
        cases hended
      · exact hnone j x s hj
  · have hbefore (op : Operation α α) (hop : .asked j op ∈ t) : False :=
      hunasked op (List.mem_append_left _ hop)
    rcases call_set hj with ⟨rfl, hsame⟩ | ⟨-, hj⟩
    · obtain ⟨q, stage⟩ := call
      cases hsame
      rcases h.unasked j x stage hcall hbefore with rfl | ⟨p, -, rfl⟩
      · refine .inr (hturn.turnedAway_of_rest h.latched hunit ?_)
        cases hop : out.2.operation? with
        | none => rfl
        | some op => exact absurd (by simp [Event.reached, hop]) (hunasked op)
      · cases hturn
    · exact h.unasked j x s hj hbefore

theorem Reaches.submits {id : String} {checked : Checked} {timer : Timer}
    (h : Reaches (created id checked timer) w t) (hsmooth : Smooth t) : w.Submits t := by
  have hcreated := orderly_created (α := α) (β := α) id checked timer
  induction h with
  | start =>
    refine ⟨rfl, fun _ ↦ ⟨?_, fun i x s hcall ↦ ?_⟩, fun i x s hcall ↦ ?_⟩
    · simp [created, Coordinator.create]
    · simp [created] at hcall
    · simp [created] at hcall
  | advance hreaches hadvance ih =>
    obtain ⟨hbefore, hnew⟩ := hsmooth.of_append
    have horderly := hreaches.orderly hcreated
    have hretires := (hreaches.holding hbefore).retires
    cases hadvance with
    | declines q r hdeclines => exact (ih hbefore).declines hdeclines
    | joins q d s hjoins =>
      refine (ih hbefore).joins hjoins ?_
      rintro rfl
      exact hnew.2 _ (List.mem_singleton_self _)
    | turns i call answer out hcall hlock hturn =>
      exact (ih hbefore).turns horderly (fun hrunning ↦ hretires.hasUnit (by simp [hrunning]))
        hcall hlock hturn hnew.of_append.1
    | retimes timer =>
      rw [List.append_nil]
      exact ⟨(ih hbefore).latched, (ih hbefore).unopened, (ih hbefore).unasked⟩

/-! ### Once a stop has begun -/

/-- A coordinator that has stopped stays so. -/
theorem Retiring.stays (h : w.Retiring) (hadvance : Advance w w' new)
    (hstopped : w.coordinator.phase = .stopped) : w'.coordinator.phase = .stopped := by
  cases hadvance with
  | declines | retimes => exact hstopped
  | joins q d s hjoins =>
    cases hjoins with
    | asks => exact hstopped
    | stops _ hne | shutsDown _ hne => exact absurd hstopped hne
  | turns i call answer out hcall hlock hturn =>
    refine hturn.halts.stays hstopped fun hopening ↦ ?_
    have hstage := stage?_of_call hcall
    rw [hopening] at hstage
    exact h.opening i hstage hstopped

/-- A stop has begun, and no submit comes to the unit any more: the coordinator has stopped, or is
stopping with nobody to open the unit, or a stop stands ahead of every submit. -/
inductive Barred (w : World α α) : Prop
  | stopped (hphase : w.coordinator.phase = .stopped)
  | stopping (hphase : w.coordinator.phase = .stopping) (hopened : ¬ w.Unopened)
  | ahead (k : Nat) (s : Stage α α) (hcall : w.calls[k]? = some ⟨.stop, s⟩)
      (hreply : s.reply? = none) (hrelease : s.isRelease = false)
      (hsubmits : ∀ (i : Nat) (x : α) (s' : Stage α α),
        w.calls[i]? = some ⟨.submit x, s'⟩ → s'.reply? = none → k < i)

/-- The stop ahead stays ahead of a call that is made after it. -/
theorem Barred.append_of_ahead {k : Nat} {s : Stage α α} (hcall : w.calls[k]? = some ⟨.stop, s⟩)
    (hreply : s.reply? = none) (hrelease : s.isRelease = false)
    (hsubmits : ∀ (i : Nat) (x : α) (s' : Stage α α),
      w.calls[i]? = some ⟨.submit x, s'⟩ → s'.reply? = none → k < i)
    (c : Coordinator) (other : Call α α) :
    (⟨c, w.calls ++ [other]⟩ : World α α).Barred := by
  have hlt := (List.getElem?_eq_some_iff.mp hcall).1
  refine .ahead k s ((List.getElem?_append_left hlt).trans hcall) hreply hrelease
    fun i x s' hi hs' ↦ ?_
  rcases call_append hi with hi | ⟨rfl, -⟩
  · exact hsubmits i x s' hi hs'
  · exact hlt

theorem Barred.joins (h : w.Barred) {q : Request α} {d : Coordinator}
    (hjoins : Coordinator.Joins q w.coordinator d s) :
    (⟨d.inLine w.calls.length, w.calls ++ [⟨q, s⟩]⟩ : World α α).Barred := by
  cases h with
  | ahead k s' hcall hreply hrelease hsubmits =>
    exact .append_of_ahead hcall hreply hrelease hsubmits _ _
  | stopped hphase =>
    cases hjoins with
    | asks => exact .stopped hphase
    | stops _ hne | shutsDown _ hne => exact absurd hphase hne
  | stopping hphase hopened =>
    cases hjoins with
    | asks => exact .stopping hphase fun h ↦ hopened (unopened_of_append id (by simp) h)
    | stops =>
      exact .stopping rfl fun h ↦
        hopened (unopened_of_append (by simp [Coordinator.inLine]) (by simp) h)
    | shutsDown => exact .stopped (Coordinator.ceased_phase _)

theorem Barred.declines (h : w.Barred) (q : Request α) (r : Reply) :
    (⟨w.coordinator, w.calls ++ [⟨q, .ended r⟩]⟩ : World α α).Barred := by
  cases h with
  | stopped hphase => exact .stopped hphase
  | stopping hphase hopened =>
    exact .stopping hphase fun h ↦ hopened (unopened_of_append id (by simp) h)
  | ahead k s' hcall hreply hrelease hsubmits =>
    exact .append_of_ahead hcall hreply hrelease hsubmits _ _

theorem Barred.turns (h : w.Barred) (horderly : w.Orderly) (hretiring : w.Retiring)
    {call : Call α α} {a : Except Failure (List α)} {out : Coordinator × Stage α α}
    (hcall : w.calls[i]? = some call) (hlock : w.coordinator.lock.holder = some i)
    (hturn : Coordinator.Turn i call.request w.coordinator call.stage a out) :
    (⟨out.1, w.calls.set i { call with stage := out.2 }⟩ : World α α).Barred := by
  have hshifts := hturn.shifts (horderly.suits call (List.mem_of_getElem? hcall))
  have hstage := stage?_of_call hcall
  cases h with
  | stopped hphase =>
    exact .stopped (hretiring.stays (.turns i call a out hcall hlock hturn) hphase)
  | stopping hphase hopened =>
    rcases hshifts.phase with hsame | hstopped | ⟨hopening, -⟩
    · exact .stopping (hsame.trans hphase) fun h ↦ hopened (unopened_of_turn hcall hturn h)
    · exact .stopped hstopped
    · rw [hopening] at hstage
      exact absurd (.inr ⟨i, hstage⟩) hopened
  | ahead k s hk hreply hrelease hsubmits =>
    have hbehind (j : Nat) (x : α) (s' : Stage α α)
        (hj : (w.calls.set i { call with stage := out.2 })[j]? = some ⟨.submit x, s'⟩)
        (hs' : s'.reply? = none) : k < j := by
      rcases call_set hj with ⟨rfl, hsame⟩ | ⟨-, hj⟩
      · obtain ⟨q, stage⟩ := call
        cases hsame
        exact hsubmits j x stage hcall hturn.reply?_eq_none
      · exact hsubmits j x s' hj hs'
    by_cases hsame : k = i
    · -- the stop itself has its turn: it goes on with its close, or stops the coordinator
      subst hsame
      obtain rfl := Option.some.inj (hcall.symm.trans hk)
      by_cases hgone : out.2.isRelease = true ∨ out.2.reply?.isSome = true
      · exact .stopped (hshifts.stops rfl hrelease hgone)
      · obtain ⟨hstill, hnone⟩ := not_or.mp hgone
        have hlt := (List.getElem?_eq_some_iff.mp hk).1
        exact .ahead k out.2 (by simp [hlt]) (by simpa using hnone) (by simpa using hstill) hbehind
    · exact .ahead k s ((List.getElem?_set_ne (Ne.symm hsame)).trans hk) hreply hrelease hbehind

theorem Barred.advance (h : w.Barred) (horderly : w.Orderly) (hretiring : w.Retiring)
    (hadvance : Advance w w' new) : w'.Barred := by
  cases hadvance with
  | declines q r => exact h.declines q r
  | joins q d s hjoins => exact h.joins hjoins
  | turns i call answer out hcall hlock hturn => exact h.turns horderly hretiring hcall hlock hturn
  | retimes timer =>
    cases h with
    | stopped hphase => exact .stopped hphase
    | stopping hphase hopened => exact .stopping hphase hopened
    | ahead k s hcall hreply hrelease hsubmits =>
      exact .ahead k s hcall hreply hrelease hsubmits

/-- A stop bars the way as soon as it begins. -/
theorem Submits.barred_of_stop (h : w.Submits t) (hadvance : Advance w w' new)
    (hnew : .issued k .stop ∈ new) : w'.Barred := by
  cases hadvance with
  | declines q r hdeclines =>
    obtain ⟨rfl, rfl⟩ : k = w.calls.length ∧ q = .stop := by simpa [eq_comm] using hnew
    exact .stopped (hdeclines.stopped (.inl rfl))
  | joins q d s hjoins =>
    obtain ⟨rfl, rfl⟩ : k = w.calls.length ∧ q = .stop := by simpa [eq_comm] using hnew
    cases hjoins with
    | asks hstop => exact absurd rfl hstop
    | shutsDown hq => cases hq
    | stops _ hphase =>
      by_cases hunopened : w.Unopened
      · refine .ahead w.calls.length .queued List.getElem?_concat_length rfl rfl
          fun i x s' hi hs' ↦ ?_
        rcases call_append hi with hi | ⟨-, hi⟩
        · have hended := (h.unopened hunopened).2 i x s' hi
          rw [hs'] at hended
          cases hended
        · cases hi
      · exact .stopping rfl fun h ↦
          hunopened (unopened_of_append (by simp [Coordinator.inLine]) (by simp) h)
  | turns => exact absurd hnew Event.issued_not_mem_turn
  | retimes => cases hnew

/-! ### Submits that a stop shuts out -/

/-- No submit that has not ended has its turn while the coordinator runs. -/
theorem Barred.phase_ne_running (h : w.Barred) (horderly : w.Orderly)
    (hcall : w.calls[i]? = some ⟨.submit x, s⟩) (hlock : w.coordinator.lock.holder = some i) :
    w.coordinator.phase ≠ .running := by
  cases h with
  | stopped hphase => simp [hphase]
  | stopping hphase => simp [hphase]
  | ahead k s' hk hreply hrelease hsubmits =>
    -- the stop would wait behind a submit that was made after it
    obtain ⟨call, hcall', hnone⟩ := horderly.holder hlock
    obtain rfl := Option.some.inj (hcall.symm.trans hcall')
    have hlt := hsubmits i x s hcall hnone
    have hmem := (horderly.mem_line k).mpr ⟨s', stage?_of_call hk, hreply⟩
    rw [Lock.line_of_holder hlock, List.mem_cons] at hmem
    have hbehind := horderly.holder_lt hlock (horderly.ingesting hcall (by simp) (by simp))
      (hmem.resolve_left (by omega)) fun s'' hs'' ↦ ?_
    · omega
    · rw [stage?_of_call hk] at hs''
      cases hs''
      exact hrelease

/-- A submit, or a call that has not been made. -/
def MaySubmit (w : World α α) (i : Nat) : Prop :=
  ∀ call : Call α α, w.calls[i]? = some call → ∃ x, call.request = .submit x

theorem Advance.maySubmit (hadvance : Advance w w' new) (h : w'.MaySubmit i) : w.MaySubmit i := by
  intro call hcall
  have hlt := (List.getElem?_eq_some_iff.mp hcall).1
  cases hadvance with
  | declines | joins => exact h call ((List.getElem?_append_left hlt).trans hcall)
  | retimes => exact h call hcall
  | turns j other a out hother =>
    by_cases hsame : i = j
    · subst hsame
      obtain rfl := Option.some.inj (hcall.symm.trans hother)
      exact h { call with stage := out.2 } (by simp [hlt])
    · exact h call ((List.getElem?_set_ne (Ne.symm hsame)).trans hcall)

/-- A submit that has asked for nothing asks for nothing once a stop has begun. -/
theorem Barred.unasked (h : w.Barred) (horderly : w.Orderly) (hsubmits : w.Submits t)
    (hadvance : Advance w w' new) (hi : w.MaySubmit i) (hunasked : ∀ op, .asked i op ∉ t)
    (op : Operation α α) : .asked i op ∉ new := by
  intro hop
  cases hadvance with
  | declines => simp at hop
  | joins => simp at hop
  | retimes => cases hop
  | turns j call a out hcall hlock hturn =>
    obtain ⟨rfl, hasks⟩ := Event.eq_of_asked_mem_turn hop
    obtain ⟨q, stage⟩ := call
    obtain ⟨x, rfl⟩ : ∃ x, q = .submit x := hi _ hcall
    rcases hsubmits.unasked i x stage hcall hunasked with rfl | ⟨p, -, rfl⟩
    · obtain ⟨p, -, hended⟩ :=
        hturn.turnedAway hsubmits.latched (h.phase_ne_running horderly hcall hlock)
      rw [hended] at hasks
      cases hasks
    · cases hturn

section Shut

variable {id : String} {checked : Checked} {timer : Timer} {u : History α α}

/-- The same along a run. -/
theorem Reaches.unasked_of_barred (h : Reaches (created id checked timer) w t) (hbarred : w.Barred)
    (hrest : Reaches w w' u) (hsmooth : Smooth (t ++ u)) :
    w'.Barred ∧ (w'.MaySubmit i → (∀ op, .asked i op ∉ t) → ∀ op, .asked i op ∉ t ++ u) := by
  induction hrest with
  | start => exact ⟨hbarred, fun _ hunasked op ↦ by simpa using hunasked op⟩
  | @advance w' w'' u new hrest hadvance ih =>
    rw [← List.append_assoc] at hsmooth ⊢
    have hbefore := hsmooth.of_append.1
    obtain ⟨hstill, hkeeps⟩ := ih hbefore
    have hreaches := h.trans hrest
    have horderly := hreaches.orderly (orderly_created id checked timer)
    refine ⟨hstill.advance horderly (hreaches.retiring hbefore) hadvance,
      fun hi hunasked op hop ↦ ?_⟩
    have hi' := hadvance.maySubmit hi
    have hnone := hkeeps hi' hunasked
    rcases List.mem_append.mp hop with hop | hop
    · exact hnone op hop
    · exact hstill.unasked horderly (hreaches.submits hbefore) hadvance hi' hnone op hop

/-- Making a call asks for nothing by itself. -/
theorem Advance.asked_not_mem (hadvance : Advance w w' new) {q : Request α}
    (hnew : .issued k q ∈ new) (op : Operation α α) : .asked i op ∉ new := by
  cases hadvance with
  | declines | joins => simp
  | turns => exact absurd hnew Event.issued_not_mem_turn
  | retimes => cases hnew

/-- When a stop begins, it bars the way before anything is asked for. -/
theorem Reaches.exists_barred (h : Reaches (created id checked timer) w t)
    (hsmooth : Smooth (t ++ w.events (.issue .stop))) :
    ∃ (mid : World α α) (before after : History α α), w.events (.issue .stop) = before ++ after ∧
      Reaches (created id checked timer) mid (t ++ before) ∧ mid.Barred ∧
      (∀ i op, .asked i op ∉ before) ∧ Reaches mid (w.issue .stop) after := by
  have hsubmits := h.submits hsmooth.of_append.1
  rcases w.issue_cases .stop with hadvance | ⟨joined, new, hjoins, hturns, hevents⟩
  · refine ⟨_, _, [], (List.append_nil _).symm, h.advance hadvance,
      hsubmits.barred_of_stop hadvance List.mem_cons_self,
      fun _ ↦ hadvance.asked_not_mem List.mem_cons_self, .start⟩
  · rw [hevents]
    exact ⟨joined, _, new, rfl, h.advance hjoins,
      hsubmits.barred_of_stop hjoins List.mem_cons_self, fun i op hop ↦ by simp at hop,
      .advance .start hturns⟩

/-- Once a stop has begun the way is barred, and a submit that had asked for nothing then never asks
for anything. -/
theorem Reaches.barred_of_stop (h : Reaches (created id checked timer) w t)
    (hrest : Reaches (w.issue .stop) w' u)
    (hsmooth : Smooth (t ++ (w.events (.issue .stop) ++ u))) :
    w'.Barred ∧ (w'.MaySubmit i → (∀ op, .asked i op ∉ t) →
      ∀ op, .asked i op ∉ t ++ (w.events (.issue .stop) ++ u)) := by
  obtain ⟨mid, before, after, hevents, hmid, hbarred, hnone, hafter⟩ :=
    h.exists_barred (by rw [← List.append_assoc] at hsmooth; exact hsmooth.of_append.1)
  have hsplit : t ++ (w.events (.issue .stop) ++ u) = (t ++ before) ++ (after ++ u) := by
    rw [hevents]
    simp
  rw [hsplit] at hsmooth ⊢
  obtain ⟨hstill, hkeeps⟩ := hmid.unasked_of_barred hbarred (hafter.trans hrest) hsmooth
  refine ⟨hstill, fun hi hunasked ↦ hkeeps hi fun op hop ↦ ?_⟩
  rcases List.mem_append.mp hop with hop | hop
  · exact hunasked op hop
  · exact hnone i op hop

end Shut

end World

end Bundling
