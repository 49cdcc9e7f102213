import Bundling.Proofs.Leftovers
import Bundling.Proofs.WatermarkOrder

/-!
The dealings of a run: the events that a counter, the items in the slot or the held watermark is
changed by, each named for what it means to them. What they change, the `Holdings`, is a machine of
its own: a dealing shifts it, and nothing else that happens in a run touches it. What is kept by
these few shifts holds in every run, whatever fails in it.
-/

set_option autoImplicit false
set_option relaxedAutoImplicit false

namespace Bundling

namespace Request

variable {α : Type}

/-- What a close by a call with this request is put down to, a full bundle included. -/
def closesAs? : Request α → Option Trigger
  | submit _ => some .itemCount
  | q => q.trigger?

theorem closesAs?_of_trigger {q : Request α} {t : Trigger} (h : q.trigger? = some t) :
    q.closesAs? = some t := by
  cases q <;> first | exact h | cases h

/-- Of the calls that close, only that of a terminal watermark brings a watermark. -/
theorem isTerminal_of_closesAs {w : Watermark} {t : Trigger}
    (h : (watermark w : Request α).closesAs? = some t) : w.isTerminal = true := by
  unfold closesAs? trigger? at h
  by_contra hterminal
  simp [hterminal] at h

end Request

/-- What may happen to a bundle or to a watermark. -/
inductive Dealing where
  | started
  | processed
  /-- All results of a bundle are out. -/
  | closed (trigger : Trigger)
  /-- A watermark is accepted behind the open bundle. -/
  | held (call : Nat) (w : Watermark)
  /-- The call that brings a watermark has forwarded it. -/
  | forwarded (w : Watermark)
  /-- A watermark that has been forwarded is accepted. -/
  | passed (call : Nat) (w : Watermark)
  /-- The held watermark leaves the slot. -/
  | takenOut (w : Watermark)
  /-- A watermark that has left the slot has been forwarded. -/
  | released (w : Watermark)
  /-- A watermark that has left the slot could not be forwarded. -/
  | dropped (w : Watermark)
  deriving DecidableEq

namespace History

variable {α β : Type} {h new : History α β} {i : Nat} {q : Request α} {w : Watermark}

/-- What the calls have been made for. -/
def requests (h : History α β) : List (Request α) :=
  h.filterMap fun
    | .issued _ q => some q
    | _ => none

def triggerOf (h : History α β) (i : Nat) : Option Trigger :=
  (requests h)[i]?.bind Request.closesAs?

/-- Whether this call has been made for this watermark. -/
def brings (h : History α β) (i : Nat) (w : Watermark) : Bool :=
  (requests h)[i]?.bind Request.watermark? == some w

/-- What an event means after a history. A close is completed by the drain or the emit that leaves
nothing due; a watermark that a call forwards without having brought it has been held. -/
def dealing? (h : History α β) : Event α β → Option Dealing
  | .answered _ .startBundle (.ok _) => some .started
  | .answered _ (.process _) (.ok _) => some .processed
  | .answered i .drainResults (.ok results) =>
    if results.isEmpty then (triggerOf h i).map .closed else none
  | .answered i (.emit _) (.ok _) =>
    if (Standing.after h).due.tail.isEmpty then (triggerOf h i).map .closed else none
  | .asked i (.forward w) => if brings h i w then none else some (.takenOut w)
  | .answered i (.forward w) (.ok _) =>
    some (if brings h i w then .forwarded w else .released w)
  | .answered i (.forward w) (.error _) => if brings h i w then none else some (.dropped w)
  | .replied i (.watermark w) .done =>
    some (if (Standing.after h).inBundle then .held i w else .passed i w)
  | _ => none

/-- The dealings in what comes after a history. -/
def dealingsAfter (h : History α β) : History α β → List Dealing
  | [] => []
  | e :: new => (dealing? h e).toList ++ dealingsAfter (h ++ [e]) new

def dealings (h : History α β) : List Dealing := dealingsAfter [] h

theorem dealings_append (h new : History α β) :
    dealings (h ++ new) = dealings h ++ dealingsAfter h new := by
  have hafter (before : History α β) :
      dealingsAfter before (h ++ new) = dealingsAfter before h ++ dealingsAfter (before ++ h) new := by
    induction h generalizing before with
    | nil => simp [dealingsAfter]
    | cons e h ih => simp [dealingsAfter, ih]
  exact hafter []

theorem dealings_snoc (h : History α β) (e : Event α β) :
    dealings (h ++ [e]) = dealings h ++ (dealing? h e).toList := by
  rw [dealings_append, dealingsAfter, dealingsAfter, List.append_nil]

theorem requests_append (h new : History α β) :
    requests (h ++ new) = requests h ++ requests new :=
  List.filterMap_append

theorem requests_answered (h : History α β) (i : Nat) (op : Operation α β)
    (a : Except Failure (List β)) : requests (h ++ [Event.answered i op a]) = requests h := by
  rw [requests_append]
  exact List.append_nil _

theorem requests_turn (i : Nat) (q : Request α) (s s' : Stage α β) (a : Except Failure (List β)) :
    requests (Event.left i s a ++ Event.reached i q s') = [] := by
  cases s <;> cases s' <;> rfl

theorem brings_of_request (hq : (requests h)[i]? = some (.watermark w)) : brings h i w = true := by
  simp [brings, hq, Request.watermark?]

/-- A call that makes a close has not been made for a watermark that was held. -/
theorem brings_eq_false {t : Trigger} (hq : (requests h)[i]? = some q)
    (hcloses : q.closesAs? = some t) (hmild : w.isTerminal = false) : brings h i w = false := by
  cases q with
  | watermark v =>
    have hterminal := Request.isTerminal_of_closesAs hcloses
    have hne : v ≠ w := by
      rintro rfl
      exact absurd (hmild.symm.trans hterminal) (by simp)
    simp [brings, hq, Request.watermark?, hne]
  | _ => simp [brings, hq, Request.watermark?]

/-- A reply means nothing to the holdings unless it accepts a watermark. -/
theorem dealing?_replied {r : Reply} (hr : (∀ w, q ≠ .watermark w) ∨ r ≠ .done) :
    dealing? h (.replied i q r) = none := by
  cases q with
  | watermark w =>
    cases r with
    | done => exact absurd hr (by simp)
    | _ => rfl
  | _ => rfl

end History

open History

/-- What dealings change: the counters, the items that the slot counts, the watermark that it holds,
and the one on its way out of it. -/
structure Holdings where
  tally : Tally := {}
  items : UInt64 := 0
  held : Option Watermark := none
  outgoing : Option Watermark := none

namespace Holdings

/-- What dealings that come together do. -/
inductive Shift (b : Holdings) : List Dealing → Holdings → Prop
  | nothing : Shift b [] b
  | starts : Shift b [.started] { b with tally := b.tally.bundleStarted }
  | takes : Shift b [.processed] { b with tally := b.tally.itemProcessed, items := b.items + 1 }
  | holds (i : Nat) (w : Watermark) :
      Shift b [.held i w] { b with tally := b.tally.watermarkHeld b.held.isSome, held := some w }
  | closes (t : Trigger) (results : UInt64) (hheld : b.held = none) :
      Shift b [.closed t] { b with tally := b.tally.bundleFinished t b.items results, items := 0 }
  | lets (t : Trigger) (results : UInt64) (w : Watermark) (hheld : b.held = some w)
      (hout : b.outgoing = none) :
      Shift b [.closed t, .takenOut w] { b with
        tally := b.tally.bundleFinished t b.items results
        items := 0, held := none, outgoing := some w }
  | releases (w : Watermark) (hout : b.outgoing = some w) :
      Shift b [.released w] { b with tally := b.tally.watermarkForwarded, outgoing := none }
  | drops (w : Watermark) (hout : b.outgoing = some w) :
      Shift b [.dropped w] { b with outgoing := none }
  | forwards (i : Nat) (w : Watermark) :
      Shift b [.forwarded w, .passed i w] { b with tally := b.tally.watermarkForwarded }

/-- What shifts make of empty holdings, with the dealings that have come with them. -/
inductive Deals : Holdings → List Dealing → Prop
  | start : Deals {} []
  | shift {b b' : Holdings} {ds new : List Dealing} (h : Deals b ds) (hshift : Shift b new b') :
      Deals b' (ds ++ new)

end Holdings

open Holdings

namespace Stage

variable {α β : Type}

/-- The close that a stage is about. -/
def close? : Stage α β → Option Close
  | finishing close | draining close | emitting close _ _ _ | releasing close _ => some close
  | _ => none

end Stage

namespace Coordinator

variable {α β : Type} {c d : Coordinator} {i : Nat} {q : Request α} {s : Stage α β}
  {a : Except Failure (List β)} {out : Coordinator × Stage α β} {h : History α β}

/-- The holdings of a coordinator with this watermark on its way out. -/
def holdings (c : Coordinator) (outgoing : Option Watermark) : Holdings :=
  ⟨c.tally, c.slot.items, c.slot.held, outgoing⟩

/-! ### Closes in progress -/

/-- A close is put down to the request of its call, and has the items of the slot until it is
completed. Only watermarks that are not terminal are held. -/
structure Closing (c : Coordinator) (q : Request α) (s : Stage α β) : Prop where
  trigger : ∀ close, s.close? = some close → q.closesAs? = some close.trigger
  items : ∀ close, s.close? = some close → s.closes = true → close.items = c.slot.items
  held : ∀ w, c.slot.held = some w → w.isTerminal = false
  outgoing : ∀ w, s.outgoing = some w → w.isTerminal = false

theorem closing_of_none (hs : s.close? = none)
    (hheld : ∀ w, c.slot.held = some w → w.isTerminal = false) : Closing c q s where
  trigger := fun close hclose ↦ by cases hs.symm.trans hclose
  items := fun close hclose ↦ by cases hs.symm.trans hclose
  held := hheld
  outgoing := fun w hw ↦ by cases s <;> cases hw; cases hs

theorem Closing.of_rest {r : Request α} {s' : Stage α β} (hclosing : Closing c q s)
    (hs : s'.operation? = none) : Closing c r s' :=
  closing_of_none (by cases s' <;> first | rfl | cases hs) hclosing.held

theorem Departure.closing {f : Option Failure} (hout : Departure i f c out)
    (hheld : ∀ w, c.slot.held = some w → w.isTerminal = false) : Closing out.1 q out.2 := by
  have hceased : ∀ w, c.ceased.slot.held = some w → w.isTerminal = false := by
    rw [ceased_slot]
    exact hheld
  cases hout with
  | already | settles => exact closing_of_none rfl hheld
  | waits | takes => exact closing_of_none rfl hceased

theorem Parting.closing {result : Except Failure Bool} (hout : Parting i q c result out)
    (hheld : ∀ w, c.slot.held = some w → w.isTerminal = false) : Closing out.1 q out.2 := by
  cases hout with
  | forwards | answers | fails | latches => exact closing_of_none rfl hheld
  | departs _ _ _ _ _ _ hdeparts => exact hdeparts.closing hheld

theorem Emission.closing {close : Close} {total : Nat} {results : List β}
    (hout : Emission i q c close total results out)
    (hheld : ∀ w, c.slot.held = some w → w.isTerminal = false)
    (htrigger : q.closesAs? = some close.trigger) (hitems : close.items = c.slot.items) :
    Closing out.1 q out.2 := by
  have hsettled : ∀ w, (c.settled close total).slot.held = some w → w.isTerminal = false :=
    fun w hw ↦ by cases hw
  cases hout with
  | more r rest =>
    refine ⟨fun _ hclose ↦ ?_, fun _ hclose _ ↦ ?_, hheld, fun w hw ↦ by cases hw⟩
    · cases hclose
      exact htrigger
    · cases hclose
      exact hitems
  | lets w hw =>
    refine ⟨fun _ hclose ↦ ?_, fun _ _ hcloses ↦ ?_, hsettled, fun v hv ↦ ?_⟩
    · cases hclose
      exact htrigger
    · cases hcloses
    · cases hv
      exact hheld w hw
  | last _ _ hparts => exact hparts.closing hsettled

theorem Turn.closing (hout : Turn i q c s a out) (hsuits : Suits q s) (hclosing : Closing c q s) :
    Closing out.1 q out.2 := by
  have hheld := hclosing.held
  -- a close that has just been begun, with the items of the slot
  have hbegins {d : Coordinator} {t : Trigger} (htrigger : q.closesAs? = some t)
      (hsame : d.slot.held = c.slot.held) :
      Closing d q (.finishing ⟨t, d.slot.items⟩ : Stage α β) := by
    refine ⟨fun _ hclose ↦ ?_, fun _ hclose _ ↦ ?_, hsame ▸ hheld, fun w hw ↦ by cases hw⟩
    · cases hclose
      exact htrigger
    · cases hclose
      rfl
  cases hout with
  | holds _ w _ _ hterminal =>
    refine closing_of_none rfl fun v hv ↦ ?_
    cases hv
    exact hterminal
  | closes _ t htrigger =>
    exact hbegins (d := { c with slot := c.slot.tryClose.2 })
      (Request.closesAs?_of_trigger htrigger) rfl
  | fills x =>
    have hq : q = .submit x := hsuits
    subst hq
    exact hbegins (d := { c.counted with slot := c.counted.slot.tryClose.2 }) rfl rfl
  | finished close =>
    exact ⟨hclosing.trigger, fun close hclose _ ↦ hclosing.items close hclose rfl, hheld,
      fun w hw ↦ by cases hw⟩
  | idles _ _ _ _ _ _ hparts | fillsNone _ _ _ _ _ hparts | finishesNot _ _ _ hparts
  | drainsNot _ _ _ hparts | emitsNot _ _ _ _ _ _ hparts | releasesNot _ _ _ _ hparts
  | released _ _ _ _ hparts => exact hparts.closing hheld
  | drained close _ _ hemission | emitted close _ _ _ _ _ hemission =>
    exact hemission.closing hheld (hclosing.trigger close rfl) (hclosing.items close rfl rfl)
  | _ => exact closing_of_none rfl hheld

/-! ### The shift of a turn -/

theorem Departure.quiet {f : Option Failure} (hout : Departure i f c out) (hq : q = .stop) :
    dealingsAfter h (Event.reached i q out.2) = [] ∧
      out.1.holdings out.2.outgoing = c.holdings none := by
  have hceased : c.ceased.holdings none = c.holdings none := by simp [holdings]
  subst hq
  cases hout with
  | already => exact ⟨rfl, rfl⟩
  | waits | takes => exact ⟨rfl, hceased⟩
  | settles =>
    refine ⟨rfl, ?_⟩
    simp [holdings, leave, unlock, inLine, Stage.outgoing, Slot.tryClose]

theorem Parting.quiet {result : Except Failure Bool} (hout : Parting i q c result out)
    (hq : (requests h)[i]? = some q) :
    dealingsAfter h (Event.reached i q out.2) = [] ∧
      out.1.holdings out.2.outgoing = c.holdings none := by
  cases hout with
  | forwards w _ hw =>
    subst hw
    simp [Event.reached, Stage.operation?, dealingsAfter, dealing?, brings_of_request hq,
      Stage.outgoing]
  | answers _ closed _ hmark =>
    refine ⟨?_, rfl⟩
    simp [Event.reached, leave, Stage.operation?, Stage.reply?, dealingsAfter,
      dealing?_replied (.inl hmark)]
  | fails f =>
    refine ⟨?_, rfl⟩
    simp [Event.reached, leave, Stage.operation?, Stage.reply?, dealingsAfter,
      dealing?_replied (.inr (by simp : Reply.failed f ≠ .done))]
  | latches _ _ hw =>
    subst hw
    exact ⟨rfl, rfl⟩
  | departs _ _ _ _ hw _ hdeparts => exact hdeparts.quiet hw

/-- A close that goes on, or is completed and lets the held watermark go. -/
theorem Emission.shift {close : Close} {total : Nat} {results : List β}
    (hout : Emission i q c close total results out) (hq : (requests h)[i]? = some q)
    (hheld : ∀ w, c.slot.held = some w → w.isTerminal = false)
    (htrigger : q.closesAs? = some close.trigger) (hitems : close.items = c.slot.items) :
    Shift (c.holdings none)
      ((if results.isEmpty then [.closed close.trigger] else []) ++
        dealingsAfter h (Event.reached i q out.2)) (out.1.holdings out.2.outgoing) := by
  cases hout with
  | more r rest => exact .nothing
  | lets w hw =>
    have hbrings := brings_eq_false hq htrigger (hheld w hw)
    have hshift := Shift.lets (b := c.holdings none) close.trigger (UInt64.ofNat total) w hw rfl
    rw [show (c.holdings none).items = close.items from hitems.symm] at hshift
    simpa [Event.reached, Stage.operation?, dealingsAfter, dealing?, hbrings, holdings, settled,
      note, Slot.reset, Slot.release, Stage.outgoing] using hshift
  | last _ hnone hparts =>
    obtain ⟨hquiet, hsame⟩ := hparts.quiet hq
    have hshift := Shift.closes (b := c.holdings none) close.trigger (UInt64.ofNat total) hnone
    rw [show (c.holdings none).items = close.items from hitems.symm] at hshift
    rw [hquiet, hsame]
    simpa [holdings, settled, note, Slot.reset, Slot.release, hnone] using hshift

/-- A call that waits for no collaborator and accepts no watermark means nothing to the holdings. -/
theorem dealingsAfter_reached (hs : s.operation? = none)
    (hr : ∀ r, s = .ended r → (∀ w, q ≠ .watermark w) ∨ r ≠ .done) :
    dealingsAfter h (Event.reached i q s) = [] := by
  cases s with
  | ended r =>
    simp [Event.reached, Stage.operation?, Stage.reply?, dealingsAfter, dealing?_replied (hr r rfl)]
  | queued | queuedToRelease => rfl
  | _ => cases hs

/-- A turn that starts when the lock is granted. -/
theorem Turn.shift_of_grant (hout : Turn i q c s a out) (hs : s.operation? = none)
    (hsuits : Suits q s) (hconduct : Conduct c none [] h) (hq : (requests h)[i]? = some q) :
    Shift (c.holdings none) (dealingsAfter h (Event.reached i q out.2))
      (out.1.holdings out.2.outgoing) := by
  have hrest (s' : Stage α β) (hs' : s'.operation? = none)
      (hr : ∀ r, s' = .ended r → (∀ w, q ≠ .watermark w) ∨ r ≠ .done) :
      Shift (c.holdings none) (dealingsAfter h (Event.reached i q s')) (c.holdings none) := by
    rw [dealingsAfter_reached hs' hr]
    exact .nothing
  cases hout with
  | refused _ f => exact hrest (.ended (.failed f)) rfl fun r hr ↦ .inr (by cases hr; simp)
  | passes _ hpass => exact hrest (.ended .done) rfl fun _ _ ↦ .inl (by simp [hpass])
  | holds _ w hw hadmitted _ hopen =>
    subst hw
    have hbundle : (Standing.after h).inBundle = true := by
      rw [hconduct.bundle hadmitted.2.2]
      simpa using hopen
    have hshift := Shift.holds (b := c.holdings none) i w
    simpa [Event.reached, leave, Stage.operation?, Stage.reply?, dealingsAfter, dealing?, hbundle,
      holdings, holdBack, note, unlock, Slot.hold, Stage.outgoing] using hshift
  | forwards _ w hw =>
    subst hw
    have hbrings := brings_of_request hq
    simpa [Event.reached, Stage.operation?, dealingsAfter, dealing?, hbrings, Stage.outgoing]
      using Shift.nothing
  | idles _ _ _ _ _ _ hparts =>
    obtain ⟨hquiet, hsame⟩ := hparts.quiet hq
    rw [hquiet, hsame]
    exact .nothing
  | findsNoUnit _ _ _ reply =>
    exact hrest (.ended reply) rfl fun _ _ ↦ .inl (hsuits.ne_watermark rfl)
  | opens | continues | starts | closes | takesUnit => exact .nothing
  | _ => cases hs

/-- A turn that starts with a collaborator's answer. -/
theorem Turn.shift_of_answer (hout : Turn i q c s a out) (hs : s.operation?.isSome = true)
    (hsuits : Suits q s) (hconducts : Conducts c i s h) (hclosing : Closing c q s)
    (hq : (requests h)[i]? = some q) (hopening : s = .opening → c.slot.items = 0) :
    Shift (c.holdings s.outgoing)
      (dealingsAfter h (Event.left i s a ++ Event.reached i q out.2))
      (out.1.holdings out.2.outgoing) := by
  obtain ⟨hconduct, hfits⟩ := hconducts
  have hanswered (op : Operation α β) (answer : Except Failure (List β)) :
      (requests (h ++ [Event.answered i op answer]))[i]? = some q := by
    rw [requests_answered]
    exact hq
  -- the call goes on to something that means nothing to the holdings
  have hrest {d : Coordinator} (op : Operation α β) (answer : Except Failure (List β))
      (s' : Stage α β) (hs' : s'.operation? = none)
      (hr : ∀ r, s' = .ended r → (∀ w, q ≠ .watermark w) ∨ r ≠ .done)
      (hshift : Shift (c.holdings s.outgoing) (dealing? h (.answered i op answer)).toList
        (d.holdings none)) :
      Shift (c.holdings s.outgoing)
        (dealingsAfter h (Event.answered i op answer :: Event.reached i q s'))
        (d.holdings none) := by
    simpa [dealingsAfter, dealingsAfter_reached hs' hr] using hshift
  have hparts {d : Coordinator} {result : Except Failure Bool} (op : Operation α β)
      (answer : Except Failure (List β)) (hparts : Parting i q d result out)
      (hshift : Shift (c.holdings s.outgoing) (dealing? h (.answered i op answer)).toList
        (d.holdings none)) :
      Shift (c.holdings s.outgoing)
        (dealingsAfter h (Event.answered i op answer :: Event.reached i q out.2))
        (out.1.holdings out.2.outgoing) := by
    obtain ⟨hquiet, hsame⟩ := hparts.quiet (hanswered op answer)
    rw [hsame]
    simpa [dealingsAfter, hquiet] using hshift
  have hemission {close : Close} {total : Nat} {results : List β} (op : Operation α β)
      (answer : Except Failure (List β)) (hemission : Emission i q c close total results out)
      (htrigger : q.closesAs? = some close.trigger) (hitems : close.items = c.slot.items)
      (hdealing : dealing? h (.answered i op answer) =
        if results.isEmpty then some (.closed close.trigger) else none) :
      Shift (c.holdings none)
        (dealingsAfter h (Event.answered i op answer :: Event.reached i q out.2))
        (out.1.holdings out.2.outgoing) := by
    have hshift := hemission.shift (hanswered op answer) hclosing.held htrigger hitems
    cases hempty : results.isEmpty <;> simpa [dealingsAfter, hdealing, hempty] using hshift
  have htriggerOf {t : Trigger} (htrigger : q.closesAs? = some t) : triggerOf h i = some t := by
    simp [triggerOf, hq, htrigger]
  have hsubmit {x : α} (hx : q = .submit x) (w : Watermark) : q ≠ .watermark w := by simp [hx]
  have hfailed {f : Failure} (r : Reply) (hr : (.ended (.failed f) : Stage α β) = .ended r) :
      (∀ w, q ≠ .watermark w) ∨ r ≠ .done := .inr (by cases hr; simp)
  cases hout with
  | opensNot f => exact hrest .openUnit (.error f) (.ended _) rfl hfailed .nothing
  | schedulesNot _ f timer notices =>
    have hsame : (({ c with slot := c.slot.reset c.timer.now, timer := timer, notices := notices } :
        Coordinator).holdings none) = c.holdings none := by
      simp [holdings, Slot.reset, hopening rfl]
    refine hrest .openUnit (.ok []) (.ended _) rfl hfailed ?_
    exact hsame ▸ .nothing
  | runs _ index timer notices =>
    have hstart : q = .start := hsuits
    have hsame : (({ c with
          slot := c.slot.reset c.timer.now, timer := timer, registration := some index
          phase := .running, notices := notices } : Coordinator).holdings none) =
        c.holdings none := by
      simp [holdings, Slot.reset, hopening rfl]
    refine hrest .openUnit (.ok []) (.ended .done) rfl (fun _ _ ↦ .inl (by simp [hstart])) ?_
    exact hsame ▸ .nothing
  | startsNot _ f => exact hrest .startBundle (.error f) (.ended _) rfl hfailed .nothing
  | started => exact .starts
  | processesNot x f => exact hrest (.process x) (.error f) (.ended _) rfl hfailed .nothing
  | accepts x =>
    exact hrest (.process x) (.ok []) (.ended .done) rfl (fun _ _ ↦ .inl (hsubmit hsuits)) .takes
  | fills => exact .takes
  | fillsNone _ _ _ _ hidle =>
    exact absurd (hfits.2.2.symm.trans (hidle hfits.1)) (by simp)
  | finishesNot _ f _ h => exact hparts .finishBundle (.error f) h .nothing
  | finished => exact .nothing
  | drainsNot _ f _ h => exact hparts .drainResults (.error f) h .nothing
  | drained close results _ h =>
    have htrigger := hclosing.trigger close rfl
    refine hemission .drainResults (.ok results) h htrigger
      (hclosing.items close rfl rfl) ?_
    simp [dealing?, htriggerOf htrigger]
  | emitsNot _ r _ _ f _ h => exact hparts (.emit r) (.error f) h .nothing
  | emitted close r rest _ _ _ hemits =>
    have htrigger := hclosing.trigger close rfl
    have hdue : (Standing.after h).due.tail = rest.map .emit := by
      rw [hconduct.due]
      rfl
    refine hemission (.emit r) (.ok []) hemits htrigger
      (hclosing.items close rfl rfl) ?_
    simp [dealing?, htriggerOf htrigger, hdue]
  | releasesNot close w f _ h =>
    have hbrings := brings_eq_false hq (hclosing.trigger close rfl) (hclosing.outgoing w rfl)
    refine hparts (.forward w) (.error f) h ?_
    rw [show dealing? _ _ = some (.dropped w) by simp [dealing?, hbrings]]
    exact .drops w rfl
  | released close w _ _ h =>
    have hbrings := brings_eq_false hq (hclosing.trigger close rfl) (hclosing.outgoing w rfl)
    refine hparts (.forward w) (.ok []) h ?_
    rw [show dealing? _ _ = some (.released w) by simp [dealing?, hbrings]]
    exact .releases w rfl
  | forwardsNot w f =>
    have hw : q = .watermark w := hsuits
    subst hw
    refine hrest (.forward w) (.error f) (.ended (.failed f)) rfl hfailed ?_
    rw [show dealing? _ _ = none by simp [dealing?, brings_of_request hq]]
    exact .nothing
  | forwarded w =>
    have hw : q = .watermark w := hsuits
    subst hw
    have hout : (Standing.after h).inBundle = false := hconduct.not_inBundle hfits.1 hfits.2.2
    have hdealings : dealingsAfter h [.answered i (.forward w) (.ok []),
        .replied i (.watermark w) .done] = [.forwarded w, .passed i w] := by
      have hstill : (Standing.after (h ++ [.answered i (.forward w) (.ok [])])).inBundle = false := by
        rw [Standing.after_snoc]
        exact hout
      simp only [dealingsAfter, dealing?, brings_of_request hq, hstill, if_true]
      rfl
    exact hdealings ▸ Shift.forwards i w
  | settles _ _ _ reply =>
    exact hrest .closeUnit _ (.ended reply) rfl
      (fun _ _ ↦ .inl (hsuits.ne_watermark rfl)) .nothing
  | _ => cases hs

theorem Turn.shift (hout : Turn i q c s a out) (hsuits : Suits q s) (hconducts : Conducts c i s h)
    (hclosing : Closing c q s) (hq : (requests h)[i]? = some q)
    (hopening : s = .opening → c.slot.items = 0) :
    Shift (c.holdings s.outgoing)
      (dealingsAfter h (Event.left i s a ++ Event.reached i q out.2))
      (out.1.holdings out.2.outgoing) := by
  cases hs : s.operation? with
  | some op => exact hout.shift_of_answer (by rw [hs]; rfl) hsuits hconducts hclosing hq hopening
  | none =>
    have hconduct := hconducts.conduct
    rw [hs, Stage.due_eq_nil hs] at hconduct
    rw [Event.left_eq_nil hs, List.nil_append, Stage.outgoing_eq_none hs]
    exact hout.shift_of_grant hs hsuits hconduct hq

end Coordinator

namespace World

variable {α β : Type} {w w' : World α β} {t new : History α β}
  {id : String} {checked : Checked} {timer : Timer}

/-- The holdings, with the watermark that the call at work is releasing. -/
def holdings (w : World α β) : Holdings := w.coordinator.holdings w.acting.2.stage.outgoing

theorem kept_closing :
    Kept (fun _ (call : Call α β) _ ↦ Coordinator.Suits call.request call.stage)
      fun c _ call _ ↦ c.Closing call.request call.stage where
  rest := fun _ hother hclosing ↦ hclosing.of_rest hother
  turns := fun _ hsuits hturn hclosing ↦ hturn.closing hsuits hclosing
  joins := by
    intro c i n q d s call t hjoins hclosing
    have hslot : (d.inLine n).slot = c.slot := hjoins.slot
    exact ⟨hclosing.trigger, hslot ▸ hclosing.items, hslot ▸ hclosing.held, hclosing.outgoing⟩
  declines := fun _ hclosing ↦ hclosing
  retimes := fun hclosing ↦
    ⟨hclosing.trigger, hclosing.items, hclosing.held, hclosing.outgoing⟩

theorem Reaches.closing (h : Reaches (created id checked timer) w t) :
    w.coordinator.Closing w.acting.2.request w.acting.2.stage := by
  have hcreated := orderly_created (α := α) (β := β) id checked timer
  exact kept_closing.reaches hcreated (fun hreaches ↦ (hreaches.orderly hcreated).suits)
    (Coordinator.closing_of_none rfl fun w hw ↦ by cases hw) h

/-- The history tells what the calls have been made for. -/
theorem Reaches.requests_eq (h : Reaches (created id checked timer) w t) :
    History.requests t = w.requests := by
  induction h with
  | start => rfl
  | advance _ hadvance ih =>
    rw [requests_append, ih]
    cases hadvance with
    | declines | joins => simp [History.requests, World.requests]
    | turns i call answer out hcall =>
      rw [requests_turn, List.append_nil]
      exact (requests_set hcall _ _).symm
    | retimes => exact List.append_nil _

/-- Before the unit has opened, nothing has been counted. -/
theorem Reaches.items_of_opening (h : Reaches (created id checked timer) w t)
    (hs : w.acting.2.stage = .opening) : w.coordinator.slot.items = 0 := by
  rw [h.fills.fill.items, (h.fills.unopened (.inr hs)).1]
  rfl

/-- Whatever advances, what has been dealt in shifts the holdings. -/
theorem Reaches.shift (h : Reaches (created id checked timer) w t) (hadvance : Advance w w' new) :
    Shift w.holdings (dealingsAfter t new) w'.holdings := by
  have hcreated := orderly_created (α := α) (β := β) id checked timer
  have horderly := h.orderly hcreated
  cases hadvance with
  | declines q r hdeclines =>
    have hreplied := dealing?_replied (h := t ++ [Event.issued w.calls.length q])
      (i := w.calls.length) hdeclines.watermark_or_done
    have hsame : (⟨w.coordinator, w.calls ++ [⟨q, .ended r⟩]⟩ : World α β).holdings =
        w.holdings := by
      unfold holdings
      rw [horderly.acting_declined]
    rw [hsame, dealingsAfter, dealingsAfter, hreplied]
    exact .nothing
  | joins q d s hjoins =>
    have hsame : (⟨d.inLine w.calls.length, w.calls ++ [⟨q, s⟩]⟩ : World α β).holdings =
        w.holdings := by
      have houtgoing : (⟨d.inLine w.calls.length, w.calls ++ [⟨q, s⟩]⟩ :
          World α β).acting.2.stage.outgoing = w.acting.2.stage.outgoing := by
        rcases horderly.acting_joined hjoins with hacting | ⟨hnow, hnext⟩
        · rw [hacting]
        · rw [Stage.outgoing_eq_none hnow, Stage.outgoing_eq_none hnext]
      unfold holdings
      rw [houtgoing]
      simp [Coordinator.holdings, Coordinator.inLine, hjoins.tally, hjoins.slot]
    rw [hsame]
    exact .nothing
  | turns i call answer out hcall hlock hturn =>
    have hacting := acting_of_holder hlock hcall
    have hconducts := h.conducts
    have hclosing := h.closing
    have hopening := h.items_of_opening
    rw [hacting] at hconducts hclosing hopening
    have hq : (History.requests t)[i]? = some call.request := by
      rw [h.requests_eq]
      simp [World.requests, hcall]
    have hshift := hturn.shift (horderly.suits call (List.mem_of_getElem? hcall)) hconducts hclosing
      hq hopening
    have hnext : (⟨out.1, w.calls.set i { call with stage := out.2 }⟩ : World α β).holdings =
        out.1.holdings out.2.outgoing := by
      unfold holdings
      rcases horderly.acting_turned hcall hlock hturn with hsame | ⟨hleft, hrest⟩
      · rw [hsame]
      · rw [Stage.outgoing_eq_none hleft, Stage.outgoing_eq_none hrest]
    rw [hnext]
    unfold holdings
    rw [hacting]
    exact hshift
  | retimes => exact .nothing

/-- The dealings of a run, and nothing else, make its holdings. -/
theorem Reaches.deals (h : Reaches (created id checked timer) w t) :
    Deals w.holdings (dealings t) := by
  induction h with
  | start => exact .start
  | advance hbefore hadvance ih =>
    rw [dealings_append]
    exact ih.shift (hbefore.shift hadvance)

/-- The watermark is held behind a bundle whose close has its results out, and could not be forwarded
then. -/
def releaseRefused : List (Move Nat Nat) :=
  [.issue .start, .proceed 0 (.ok []), .issue (.submit 1), .proceed 1 (.ok []),
    .proceed 1 (.ok []), .issue (.watermark ⟨5⟩), .issue .endInput, .proceed 3 (.ok []),
    .proceed 3 (.ok [1]), .proceed 3 (.ok []), .proceed 3 (.error (.sink "injected"))]

example : dealings (plain.trace releaseRefused) = [.started, .processed, .held 2 ⟨5⟩,
    .closed .endOfInput, .takenOut ⟨5⟩, .dropped ⟨5⟩] := by decide

end World

end Bundling
