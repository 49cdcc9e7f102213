import Mathlib.Data.List.Infix
import Bundling.Proofs.Stopping
import Bundling.Proofs.WatermarkOrder

/-!
Stops lose nothing, in runs without failures and without a direct shutdown. Once a stop has begun,
no submit that has not held the lock yet comes to the unit; and once one has returned, the items of
the submits that were acknowledged, the items that the unit has taken and the results that have been
emitted are the same, with no watermark held and no bundle open.
-/

set_option autoImplicit false
set_option relaxedAutoImplicit false

namespace Bundling

namespace History

variable {α : Type} {h : History α α}

open Standing

/-- Every item taken is emitted, due to be emitted, or still in the unit, in this order. -/
def Accounted (h : History α α) : Prop :=
  (entries h).processed = (entries h).emitted ++ results (after h).due ++ undrained h

theorem Accounted.quiet (hh : Accounted h) {e : Event α α} (hentry : entryOf e = none)
    (hheld : gather (undrained h) e = undrained h)
    (hdue : ((after h).step e).due = (after h).due) : Accounted (h ++ [e]) := by
  unfold Accounted
  rw [entries_snoc, undrained_snoc, after_snoc, hentry, hheld, hdue, Option.toList_none,
    List.append_nil]
  exact hh

theorem Accounted.succeeds (hh : Accounted h) {i : Nat} {op : Operation α α} {answer : List α}
    (hsound : (after h).Sound) (hunderway : (after h).underway = some (i, op))
    (hdrain : op = .drainResults → answer = undrained h) :
    Accounted (h ++ [Event.answered i op (.ok answer)]) := by
  have hdue := hsound.due_of_underway hunderway
  unfold Accounted at hh ⊢
  rw [entries_snoc, undrained_snoc, after_snoc, Standing.step, answer_due,
    Journal.processed_append, Journal.emitted_append]
  cases op with
  | process x =>
    dsimp only at hdue
    rw [hh, hdue]
    simp [entryOf, Operation.entryOf, Journal.processed, Journal.emitted, Journal.processedItem?,
      Journal.emittedResult?, gather, dueAfter]
  | drainResults =>
    dsimp only at hdue
    rw [hh, hdue, hdrain rfl]
    simp [entryOf, Operation.entryOf, Journal.processed, Journal.emitted, gather, dueAfter]
  | emit x =>
    obtain ⟨rest, hdue⟩ := hdue
    rw [hh, hdue]
    simp [entryOf, Operation.entryOf, Journal.processed, Journal.emitted, Journal.processedItem?,
      Journal.emittedResult?, gather, dueAfter]
  | _ =>
    dsimp only at hdue
    rw [hh, hdue]
    simp [entryOf, Operation.entryOf, Journal.processed, Journal.emitted, List.filterMap_cons,
      Journal.processedItem?, Journal.emittedResult?, gather, dueAfter]

theorem Smooth.accounted (hsmooth : Smooth h) (hlawful : Lawful h) (hfaithful : Faithful h) :
    Accounted h := by
  induction h using List.reverseRecOn with
  | nil => rfl
  | append_singleton h e ih =>
    obtain ⟨hbefore, hpermits⟩ := hlawful.of_snoc
    obtain ⟨hfaithful', hdrain⟩ := hfaithful.of_snoc
    have haccounted := ih hsmooth.of_append.1 hbefore hfaithful'
    cases e with
    | issued | replied => exact haccounted.quiet rfl rfl rfl
    | asked i op => exact haccounted.quiet rfl rfl (ask_due _ _ _)
    | answered i op a =>
      cases a with
      | error f => exact absurd (by simp) (hsmooth.1 i op f)
      | ok answer =>
        exact haccounted.succeeds hbefore.sound hpermits fun hop ↦ hdrain i answer (by rw [hop])

/-! ### Submits that have returned -/

def acknowledged? : Event α α → Option α
  | .replied _ (.submit x) .done => some x
  | _ => none

/-- The items of the submits that have returned without a failure, in the order of their returns. -/
def acknowledged (h : History α α) : List α := h.filterMap acknowledged?

theorem acknowledged_append (h new : History α α) :
    acknowledged (h ++ new) = acknowledged h ++ acknowledged new :=
  List.filterMap_append

end History

namespace Coordinator

variable {α : Type} {c : Coordinator} {i : Nat} {q : Request α} {s : Stage α α} {x : α}
  {out : Coordinator × Stage α α}

open History

/-- The item of a submit that the unit has taken and whose close is not over. -/
def unsettled : Request α → Stage α α → List α
  | .submit x, .finishing _ | .submit x, .draining _ | .submit x, .emitting _ _ _ _ => [x]
  | .submit x, .releasing _ _ => [x]
  | _, _ => []

theorem unsettled_of_rest (q : Request α) (hs : s.operation? = none) : unsettled q s = [] := by
  cases q <;> cases s <;> first | rfl | cases hs

theorem Parting.acknowledges {closed : Bool} (hout : Parting i (.submit x) c (.ok closed) out) :
    acknowledged (Event.reached i (.submit x) out.2) ++ unsettled (.submit x) out.2 = [x] := by
  cases hout with
  | answers => rfl
  | forwards _ _ hq | departs _ _ _ _ hq => cases hq

theorem Emission.acknowledges {close : Close} {total : Nat} {results : List α}
    (hout : Emission i (.submit x) c close total results out) :
    acknowledged (Event.reached i (.submit x) out.2) ++ unsettled (.submit x) out.2 = [x] := by
  cases hout with
  | more | lets => rfl
  | last _ _ hparts => exact hparts.acknowledges

/-- A submit returns when its item is taken, or after the close that its item brings about. -/
theorem Turn.acknowledges_submit {a : Except Failure (List α)}
    (hout : Turn i (.submit x) c s a out) (hsuits : Suits (.submit x) s)
    (hsmooth : Smooth (Event.left i s a)) :
    unsettled (.submit x) s ++ (entries (Event.left i s a)).processed =
      acknowledged (Event.reached i (.submit x) out.2) ++ unsettled (.submit x) out.2 := by
  have hok {op : Operation α α} (hop : s.operation? = some op) := ok_of_smooth_left hsmooth hop
  cases hout with
  | refused | continues | starts | started | finished => rfl
  | accepts | fills =>
    cases hsuits
    rfl
  | fillsNone _ _ _ _ _ hparts =>
    cases hsuits
    exact hparts.acknowledges.symm
  | released _ _ _ _ hparts => exact hparts.acknowledges.symm
  | drained _ _ _ h => exact h.acknowledges.symm
  | emitted _ _ _ _ _ _ h => exact h.acknowledges.symm
  | startsNot | processesNot | finishesNot | drainsNot | emitsNot | releasesNot =>
    obtain ⟨_, hresults⟩ := hok rfl
    cases hresults
  | passes _ hq | opens _ hq | holds _ _ hq | forwards _ _ hq => cases hq
  | closes _ _ hq | idles _ _ _ hq => cases hq
  | opensNot | schedulesNot | runs | forwardsNot | forwarded => cases hsuits
  | takesUnit | findsNoUnit | settles => rcases hsuits with hsuits | hsuits <;> cases hsuits

theorem Turn.acknowledges {a : Except Failure (List α)} (hout : Turn i q c s a out)
    (hsuits : Suits q s) (hsmooth : Smooth (Event.left i s a)) :
    unsettled q s ++ (entries (Event.left i s a)).processed =
      acknowledged (Event.reached i q out.2) ++ unsettled q out.2 := by
  by_cases hq : ∃ x, q = .submit x
  · obtain ⟨x, rfl⟩ := hq
    exact hout.acknowledges_submit hsuits hsmooth
  · have hsettled (s : Stage α α) : unsettled q s = [] := by
      cases q <;> first | rfl | exact absurd ⟨_, rfl⟩ hq
    have hsilent : acknowledged (Event.reached i q out.2) = [] := by
      cases hs : out.2 <;> cases q <;> first | rfl | exact absurd ⟨_, rfl⟩ hq
    have htakes : (entries (Event.left i s a)).processed = [] := by
      cases s with
      | processing x => exact absurd ⟨x, hsuits⟩ hq
      | _ => cases a <;> rfl
    rw [hsettled, hsettled, hsilent, htakes]

/-! ### The last close -/

theorem Parting.stop_of_stops {d : Coordinator} {result : Except Failure Bool}
    (hout : Parting i q d result out) (hd : d.phase ≠ .stopped)
    (hstopped : out.1.phase = .stopped) : q = .stop := by
  cases hout with
  | departs _ _ _ _ hq => exact hq
  | forwards | answers | fails | latches => exact absurd hstopped hd

/-- A turn that stops the coordinator has found no bundle open. -/
theorem Turn.shut_of_stops {a : Except Failure (List α)} (hout : Turn i q c s a out)
    (hfits : c.Fits s) (hunit : c.hasUnit = true) (hrunning : c.phase ≠ .stopped)
    (hstopped : out.1.phase = .stopped) :
    c.slot.isOpen = false ∧ s.operation? ≠ some .startBundle := by
  cases hout with
  | idles _ _ _ _ hidle _ hparts =>
    obtain rfl := hparts.stop_of_stops hrunning hstopped
    exact ⟨hidle trivial hunit, by simp [Stage.operation?]⟩
  | fillsNone _ _ _ _ hidle => exact ⟨hidle hunit, by simp [Stage.operation?]⟩
  | finishesNot | drainsNot | drained | emitsNot | emitted | releasesNot | released =>
    exact ⟨hfits.2.2, by simp [Stage.operation?]⟩
  | runs => cases hstopped
  | _ => exact absurd hstopped hrunning

theorem Declines.acknowledged {n : Nat} {r : Reply} (h : Declines q c r) :
    acknowledged [Event.issued n q, .replied n q r] = [] := by
  cases q with
  | submit x =>
    cases r with
    | done => exact absurd rfl (h.ne_done (by simp) (by simp) (by simp))
    | _ => rfl
  | _ => rfl

end Coordinator

namespace Standing

variable {α β : Type}

/-- Only the start of a bundle brings one about. -/
theorem inBundle_of_turn {st : Standing α β} (hst : st.inBundle = false) (i : Nat) (q : Request α)
    {s : Stage α β} (hs : s.operation? ≠ some .startBundle) (a : Except Failure (List β))
    (s' : Stage α β) :
    ((Event.left i s a ++ Event.reached i q s').foldl step st).inBundle = false := by
  have hanswered : ((Event.left i s a).foldl step st).inBundle = false := by
    cases s <;> cases a <;> first | exact hst | exact absurd rfl hs
  rw [List.foldl_append]
  cases s' <;> first | exact hanswered | rfl

end Standing

namespace World

variable {α : Type} {w w' : World α α} {t new : History α α}

open History

theorem kept_acknowledged :
    Kept (fun _ (call : Call α α) _ ↦ Coordinator.Suits call.request call.stage)
      fun _ _ call t ↦ Smooth t → (entries t).processed =
        acknowledged t ++ Coordinator.unsettled call.request call.stage where
  rest := by
    intro c i j call other t hcall hother h hsmooth
    rw [h hsmooth, Coordinator.unsettled_of_rest _ hcall, Coordinator.unsettled_of_rest _ hother]
  turns := by
    intro c i call answer out t hlock hsuits hturn h hsmooth
    obtain ⟨hbefore, hnew⟩ := hsmooth.of_append
    have hitems := hturn.acknowledges hsuits hnew.of_append.1
    have hleft : acknowledged (Event.left i call.stage answer) = [] := by
      unfold Event.left
      split <;> rfl
    have hreached : entries (Event.reached i call.request out.2) = [] := by
      cases out.2 <;> rfl
    rw [entries_append, entries_append, hreached, List.append_nil, Journal.processed_append,
      h hbefore, acknowledged_append, acknowledged_append, hleft, List.nil_append,
      List.append_assoc, List.append_assoc, hitems]
  joins := by
    intro c i n q d s call t hjoins h hsmooth
    have hentries : entries [(Event.issued n q : Event α α)] = [] := rfl
    have hreturned : acknowledged [(Event.issued n q : Event α α)] = [] := rfl
    rw [entries_append, acknowledged_append, hentries, hreturned, List.append_nil, List.append_nil]
    exact h hsmooth.of_append.1
  declines := by
    intro c i n q r call t hdeclines h hsmooth
    have hentries : entries [Event.issued n q, Event.replied n q r] = ([] : Journal α) := rfl
    rw [entries_append, acknowledged_append, hentries, hdeclines.acknowledged, List.append_nil,
      List.append_nil]
    exact h hsmooth.of_append.1
  retimes := fun h ↦ h

section Smooth

variable {id : String} {checked : Checked} {timer : Timer}

theorem Reaches.processed_eq (h : Reaches (created id checked timer) w t) (hsmooth : Smooth t) :
    (entries t).processed =
      acknowledged t ++ Coordinator.unsettled w.acting.2.request w.acting.2.stage := by
  have hcreated := orderly_created (α := α) (β := α) id checked timer
  exact kept_acknowledged.reaches hcreated
    (fun hreaches call hcall ↦ (hreaches.orderly hcreated).suits call hcall) (fun _ ↦ rfl) h hsmooth

/-- A stop does not return before the coordinator has stopped. -/
theorem Reaches.stopped_of_replied (h : Reaches (created id checked timer) w t)
    (hsmooth : Smooth t) {k : Nat} {r : Reply} (hreplied : .replied k .stop r ∈ t) :
    w.coordinator.phase = .stopped := by
  have hcreated := orderly_created (α := α) (β := α) id checked timer
  induction h with
  | start => cases hreplied
  | advance hreaches hadvance ih =>
    have hbefore := hsmooth.of_append.1
    have hretiring := hreaches.retiring hbefore
    rcases List.mem_append.mp hreplied with hold | hlast
    · exact hretiring.stays hadvance (ih hbefore hold)
    · cases hadvance with
      | declines q r' hdeclines =>
        simp only [List.mem_cons, List.not_mem_nil, or_false, reduceCtorEq, false_or] at hlast
        cases hlast
        exact hdeclines.stopped (.inl rfl)
      | joins => simp at hlast
      | retimes => cases hlast
      | turns i call answer out hcall hlock hturn =>
        obtain ⟨rfl, hq, hended⟩ := Event.eq_of_replied_mem_turn hlast
        have hstage := stage?_of_call hcall
        cases hrelease : call.stage.isRelease with
        | true =>
          exact hretiring.stays (.turns k call answer out hcall hlock hturn)
            (hretiring.releases k _ hstage hrelease)
        | false =>
          have hsuits := (hreaches.orderly hcreated).suits call (List.mem_of_getElem? hcall)
          exact (hturn.shifts hsuits).stops hq.symm hrelease (.inr (by simp [hended, Stage.reply?]))

/-- No bundle is in progress once the coordinator has stopped. -/
theorem Reaches.inBundle_of_stopped (h : Reaches (created id checked timer) w t)
    (hsmooth : Smooth t) (hphase : w.coordinator.phase = .stopped) :
    (Standing.after t).inBundle = false := by
  induction h with
  | start => cases hphase
  | @advance w w' t new hreaches hadvance ih =>
    have hbefore := hsmooth.of_append.1
    rw [Standing.after_append]
    cases hadvance with
    | declines | retimes => exact ih hbefore hphase
    | joins q d s hjoins =>
      cases hjoins with
      | asks => exact ih hbefore hphase
      | stops => cases hphase
      | shutsDown hq => exact absurd (by simp [hq]) (hsmooth.of_append.2.2 w.calls.length)
    | turns i call answer out hcall hlock hturn =>
      have hconducts := hreaches.conducts
      have hholding := hreaches.holding hbefore
      rw [acting_of_holder hlock hcall] at hconducts hholding
      obtain ⟨hbundle, hstart⟩ : (Standing.after t).inBundle = false ∧
          call.stage.operation? ≠ some .startBundle := by
        by_cases hwas : w.coordinator.phase = .stopped
        · refine ⟨ih hbefore hwas, fun hop ↦ ?_⟩
          cases hholding.ending hwas _ hop
        · have hunit := hholding.retires.hasUnit hwas
          obtain ⟨hopen, hstart⟩ := hturn.shut_of_stops hconducts.fits hunit hwas hphase
          refine ⟨?_, hstart⟩
          rw [← Coordinator.inBundle_after]
          exact Coordinator.inBundle_eq_false hconducts.conduct hunit hopen
      exact Standing.inBundle_of_turn hbundle _ _ hstart _ _

/-- Once the coordinator has stopped, what the unit has taken has been emitted and acknowledged. -/
theorem Reaches.settled_of_stopped (h : Reaches (created id checked timer) w t)
    (hsmooth : Smooth t) (hfaithful : Faithful t) (hphase : w.coordinator.phase = .stopped) :
    acknowledged t = (entries t).processed ∧ (entries t).emitted = (entries t).processed := by
  have hconduct := h.conducts.conduct
  have hending := (h.holding hsmooth).ending hphase
  have hquiet : w.acting.2.stage.due = [] ∧
      Coordinator.unsettled w.acting.2.request w.acting.2.stage = [] := by
    generalize w.acting.2.stage = s at hending ⊢
    cases s with
    | queued | queuedToRelease | closingUnit | ended =>
      exact ⟨rfl, by cases w.acting.2.request <;> rfl⟩
    | _ => cases hending _ rfl
  have hundrained : undrained t = [] := by
    by_contra hheld
    rcases undrained_cases hconduct.lawful hheld with hin | ⟨i, hfinish⟩ | hdrain | hstrands
    · exact absurd ((h.inBundle_of_stopped hsmooth hphase).symm.trans hin) (by simp)
    · rw [hconduct.underway] at hfinish
      obtain ⟨op, hop, heq⟩ := Option.map_eq_some_iff.mp hfinish
      cases hending op hop
      cases heq
    · rw [hconduct.due, hquiet.1] at hdrain
      cases hdrain
    · exact hsmooth.not_undelivered (.inr hstrands)
  have hprocessed := h.processed_eq hsmooth
  have haccounted : (entries t).processed = _ := hsmooth.accounted hconduct.lawful hfaithful
  rw [hquiet.2, List.append_nil] at hprocessed
  rw [hconduct.due, hquiet.1, hundrained, results_nil, List.append_nil, List.append_nil]
    at haccounted
  exact ⟨hprocessed.symm, haccounted.symm⟩

end Smooth

/-! ### Asking with the lock -/

theorem Advance.stage?_of_asked (hadvance : Advance w w' new) {i : Nat} {op : Operation α α}
    (hop : .asked i op ∈ new) : ∃ s, w'.stage? i = some s ∧ s.operation? = some op := by
  cases hadvance with
  | declines | joins => simp at hop
  | retimes => cases hop
  | turns j call a out hcall =>
    obtain ⟨rfl, hasks⟩ := Event.eq_of_asked_mem_turn hop
    exact ⟨out.2, by rw [stage?_set hcall, if_pos rfl], hasks⟩

/-- Whoever asks for something holds the lock. -/
theorem Orderly.holdsLock_of_asked (h : w.Orderly) (m : Bundling.Move α α) {i : Nat}
    {op : Operation α α} (hop : .asked i op ∈ w.events m) : (w.step m).holdsLock i = true := by
  have hholds {v v' : World α α} {new : History α α} (horderly : v.Orderly)
      (hadvance : Advance v v' new) (hop : .asked i op ∈ new) : v'.holdsLock i = true := by
    obtain ⟨s, hs, hasks⟩ := hadvance.stage?_of_asked hop
    have hholder := (horderly.advance hadvance).holder_of_operation hs (by rw [hasks]; rfl)
    simp [holdsLock, hholder]
  rcases h.step_cases m with ⟨-, hevents⟩ | hadvance | ⟨_, _, _, new, hjoins, hturns, hevents⟩
  · rw [hevents] at hop
    cases hop
  · exact hholds h hadvance hop
  · rw [hevents] at hop
    exact hholds (h.advance hjoins) hturns (by simpa using hop)

end World

namespace Rig

variable {α : Type}

open History

/-- At some moment of these moves the call has held the lock. -/
def Granted (r : Rig α) (moves : List (Move α)) (i : Nat) : Prop :=
  ∃ past, past <+: moves ∧ (r.run past).world.holdsLock i = true

theorem granted_of_asked {r : Rig α} (h : r.world.Orderly) {moves : List (Move α)} {i : Nat}
    {op : Operation α α} (hop : .asked i op ∈ r.trace moves) : r.Granted moves i := by
  induction moves using List.reverseRecOn with
  | nil => cases hop
  | append_singleton moves m ih =>
    rw [trace_snoc] at hop
    rcases List.mem_append.mp hop with hbefore | hlast
    · obtain ⟨past, hpast, hholds⟩ := ih hbefore
      exact ⟨past, hpast.trans (List.prefix_append moves [m]), hholds⟩
    · refine ⟨moves ++ [m], List.prefix_refl _, ?_⟩
      have horderly := (reaches_run h moves).orderly h
      rw [run_snoc, world_step]
      unfold events at hlast
      rcases worldMoves_cases (r.run moves) m with hnone | ⟨m', hm'⟩
      · rw [hnone] at hlast
        cases hlast
      · rw [hm'] at hlast ⊢
        simp only [World.trace, List.append_nil] at hlast
        exact horderly.holdsLock_of_asked m' hlast

/-- A submit that comes to nothing: it asks for nothing, and waits for the lock until it is turned
away, because the coordinator does not run, as soon as the lock comes to it. -/
structure ShutOut (r : Rig α) (t : History α α) (i : Nat) : Prop where
  unasked : ∀ op, .asked i op ∉ t
  stage : ∃ s, r.world.stage? i = some s ∧ (s = .queued ∨ s.TurnedAway)
  leaves : r.world.holdsLock i = true →
    ∃ s, (r.step (.proceed i none)).world.stage? i = some s ∧ s.TurnedAway

/-- Nothing is lost and nothing left over: the items of the submits that have returned without a
failure, those that the unit has taken and those emitted are the same, in one order. -/
structure Settled (r : Rig α) (t : History α α) : Prop where
  acknowledged : acknowledged t = r.recorder.journal.processed
  emitted : r.recorder.journal.emitted = r.recorder.journal.processed
  held : r.world.coordinator.slot.held = none
  shut : r.world.coordinator.slot.isOpen = false

/-- A waiting submit that has the lock is turned away by its next move. -/
theorem turnedAway_step {r : Rig α} (horderly : r.world.Orderly) (hbarred : r.world.Barred)
    (hlatched : r.world.coordinator.latched = none) {i : Nat} {x : α}
    (hcall : r.world.calls[i]? = some ⟨.submit x, .queued⟩) (hholds : r.world.holdsLock i = true) :
    ∃ s, (r.step (.proceed i none)).world.stage? i = some s ∧ s.TurnedAway := by
  have hstage := World.stage?_of_call hcall
  have hstep : (r.step (.proceed i none)).world = r.world.proceed i (.ok []) := by
    simp [step, proceed, proceed?, hstage, Stage.operation?, Stage.awaitsLock, hholds]
  have hrun : r.world.canRun i .queued = true := by
    simp [World.canRun, Stage.operation?, Stage.awaitsLock, hholds]
  obtain ⟨hlock, hturn⟩ := World.turn_stretch horderly (.ok []) hcall hrun
  refine ⟨_, ?_, hturn.turnedAway hlatched (hbarred.phase_ne_running horderly hcall hlock)⟩
  rw [hstep, World.stage?_proceed _ _ _ _ hcall]

section Stop

variable (id : String) (checked : Checked) (timer : Timer)

/-- A submit that has not held the lock by the time a stop begins is shut out. -/
theorem shutOut_of_stop {pre post : List (Move α)}
    (hmoves : ∀ m ∈ pre ++ .issue .stop :: post, m.Smooth) {i : Nat} {x : α}
    (hrequest : ((created id checked timer []).run
      (pre ++ .issue .stop :: post)).world.requests[i]? = some (.submit x))
    (hgranted : ¬ (created id checked timer []).Granted pre i) :
    ShutOut ((created id checked timer []).run (pre ++ .issue .stop :: post))
      ((created id checked timer []).trace (pre ++ .issue .stop :: post)) i := by
  have hcreated := World.orderly_created (α := α) (β := α) id checked timer
  have hbefore := reaches id checked timer [] pre
  have hreaches := reaches id checked timer [] (pre ++ .issue .stop :: post)
  have hsmooth := smooth_trace id checked timer _ hmoves
  have horderly := hreaches.orderly hcreated
  have hsubmits := hreaches.submits hsmooth
  -- the run from the stop on
  have hrest := reaches_run
    (r := ((created id checked timer []).run pre).step (.issue .stop))
    ((hbefore.step (hbefore.orderly hcreated) (.issue .stop)).orderly hcreated) post
  have hrun : (created id checked timer []).run (pre ++ .issue .stop :: post) =
      (((created id checked timer []).run pre).step (.issue .stop)).run post := run_append _ _ _
  have htrace : (created id checked timer []).trace (pre ++ .issue .stop :: post) =
      (created id checked timer []).trace pre ++
        (((created id checked timer []).run pre).world.events (.issue .stop) ++
          (((created id checked timer []).run pre).step (.issue .stop)).trace post) := by
    rw [trace_append]
    change _ ++ ((_ ++ []) ++ _) = _
    rw [List.append_nil]
  have hunasked (op : Operation α α) :
      .asked i op ∉ (created id checked timer [] : Rig α).trace pre :=
    fun hop ↦ hgranted (granted_of_asked hcreated hop)
  rw [htrace] at hsmooth
  rw [← hrun] at hrest
  obtain ⟨hbarred, hkeeps⟩ := hbefore.barred_of_stop (i := i) hrest hsmooth
  rw [← htrace] at hkeeps
  generalize (created id checked timer []).run (pre ++ .issue .stop :: post) = r at *
  obtain ⟨⟨q, s⟩, hcall, hq⟩ : ∃ call, r.world.calls[i]? = some call ∧
      call.request = .submit x := by
    simpa [World.requests] using hrequest
  cases hq
  have hnone := hkeeps (fun call hcall' ↦ ⟨x, by cases hcall.symm.trans hcall'; rfl⟩) hunasked
  have hstage := hsubmits.unasked i x s hcall hnone
  refine ⟨hnone, ⟨s, World.stage?_of_call hcall, hstage⟩, fun hholds ↦ ?_⟩
  rcases hstage with rfl | ⟨p, -, rfl⟩
  · exact turnedAway_step horderly hbarred hsubmits.latched hcall hholds
  · obtain ⟨call, hcall', hreply⟩ := horderly.holder (by simpa [World.holdsLock] using hholds)
    cases hcall.symm.trans hcall'
    cases hreply

/-- A stop loses nothing. A submit that has not held the lock by the time a stop begins comes to
nothing, and once a stop has returned without a failure, everything taken has been emitted. -/
theorem stop_loses_nothing {moves : List (Move α)} (hmoves : ∀ m ∈ moves, m.Smooth) :
    (∀ pre post, moves = pre ++ .issue .stop :: post → ∀ i x,
      ((created id checked timer []).run moves).world.requests[i]? = some (.submit x) →
        ¬ (created id checked timer []).Granted pre i →
          ShutOut ((created id checked timer []).run moves)
            ((created id checked timer []).trace moves) i) ∧
      ∀ k, .replied k .stop .done ∈ (created id checked timer []).trace moves →
        Settled ((created id checked timer []).run moves)
          ((created id checked timer []).trace moves) := by
  refine ⟨?_, fun k hreplied ↦ ?_⟩
  · rintro pre post rfl i x hrequest hgranted
    exact shutOut_of_stop id checked timer hmoves hrequest hgranted
  · have hsmooth := smooth_trace id checked timer moves hmoves
    have hreaches := reaches id checked timer [] moves
    have hrecords := records_run id checked timer [] moves
    have hstopped := hreaches.stopped_of_replied hsmooth hreplied
    obtain ⟨hacknowledged, hemitted⟩ :=
      hreaches.settled_of_stopped hsmooth hrecords.faithful hstopped
    obtain ⟨hopen, hheld⟩ := (hreaches.holding hsmooth).retires.stopped hstopped
    rw [← hrecords.journal] at hacknowledged hemitted
    exact ⟨hacknowledged, hemitted, hheld, hopen⟩

end Stop

/-- A submit that waits behind a close. -/
def submitBehindClose : List (Move Nat) :=
  [.issue .start, .proceed 0 none, .issue (.submit 1), .proceed 1 none, .proceed 1 none,
    .issue .endInput, .issue (.submit 2)]

/-- The same, and a stop that begins while it waits. -/
def stopBehindClose : List (Move Nat) :=
  submitBehindClose ++ .issue .stop :: [.proceed 2 none, .proceed 2 none, .proceed 2 none,
    .proceed 3 none, .proceed 4 none, .proceed 4 none]

theorem stop_loses_nothing_behind_close :
    (∀ m ∈ stopBehindClose, m.Smooth) ∧
      ShutOut (plain.run stopBehindClose) (plain.trace stopBehindClose) 3 ∧
      (plain.run stopBehindClose).world.stage? 3 =
        some (.ended (.failed (.refused (.notRunning "submit" .stopping)))) ∧
      Settled (plain.run stopBehindClose) (plain.trace stopBehindClose) ∧
      (plain.run stopBehindClose).recorder.journal.emitted = [1] := by
  have hmoves : ∀ m ∈ stopBehindClose, m.Smooth := by
    simp [stopBehindClose, submitBehindClose, Move.Smooth]
  have hgranted : ¬ plain.Granted submitBehindClose 3 := by
    rintro ⟨past, hpast, hholds⟩
    have hnever : ∀ past ∈ submitBehindClose.inits,
        (plain.run past).world.holdsLock 3 = false := by decide
    cases hholds.symm.trans (hnever past ((List.mem_inits _ _).mpr hpast))
  have hend : plain.trace stopBehindClose = plain.trace stopBehindClose.dropLast ++
      [.answered 4 .closeUnit (.ok []), .replied 4 .stop .done] := rfl
  have hreplied : .replied 4 .stop .done ∈ plain.trace stopBehindClose := by
    rw [hend]
    simp
  obtain ⟨hshutOut, hsettled⟩ := stop_loses_nothing "plain" (Limits.check {})
    { kind := .manual false, now := 0 } hmoves
  exact ⟨hmoves, hshutOut submitBehindClose _ rfl 3 2 rfl hgranted, rfl, hsettled 4 hreplied, rfl⟩

end Rig

end Bundling
