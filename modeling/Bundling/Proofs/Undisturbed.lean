import Bundling.Proofs.Onlookers

/-!
What a call does to the slot of a running coordinator when nobody else is about and no collaborator
fails, however many results the unit gives. The call comes to its end; what the journal has gained
by then tells whether a bundle is open and which moment the next one's age is counted from.
-/

set_option autoImplicit false
set_option relaxedAutoImplicit false

namespace Bundling

/-! ### Starts and finishes -/

namespace Entry

variable {α : Type}

def isStart : Entry α → Bool
  | started => true
  | _ => false

def isFinish : Entry α → Bool
  | finished => true
  | _ => false

end Entry

namespace Journal

variable {α τ : Type}

/-- The last moment of such an entry, where these have been written now. -/
def lastly (p : Entry α → Bool) (now before : τ) (j : Journal α) : τ :=
  if j.any p then now else before

theorem lastly_append (p : Entry α → Bool) (now before : τ) (j k : Journal α) :
    (j ++ k).lastly p now before = k.lastly p now (j.lastly p now before) := by
  unfold lastly
  rw [List.any_append]
  cases j.any p <;> cases k.any p <;> rfl

theorem lastly_of_any {p : Entry α → Bool} {j : Journal α} (h : j.any p = true) (now before : τ) :
    j.lastly p now before = now := if_pos h

theorem lastly_of_not_any {p : Entry α → Bool} {j : Journal α} (h : j.any p = false)
    (now before : τ) : j.lastly p now before = before := if_neg (by simp [h])

theorem lastly_le (p : Entry α → Bool) {now before : Nat} (h : before ≤ now) (j : Journal α) :
    j.lastly p now before ≤ now := by
  unfold lastly
  split
  · exact Nat.le_refl now
  · exact h

end Journal

namespace Slot

variable {α : Type} {s t u : Slot} {now : Int64} {j k : Journal α}

/-- What a slot has become while the clock stood still and the journal gained these entries. A
finish sets the moment of the last close; a bundle that is open has been started, or was open before
and has not been finished. -/
structure Becomes (now : Int64) (s t : Slot) (j : Journal α) : Prop where
  lastClose : t.lastClose = j.lastly Entry.isFinish now s.lastClose
  isOpen : t.isOpen = true →
    j.any Entry.isStart = true ∨ s.isOpen = true ∧ j.any Entry.isFinish = false

theorem Becomes.refl (now : Int64) (s : Slot) : s.Becomes now s ([] : Journal α) :=
  ⟨rfl, fun hopen ↦ .inr ⟨hopen, rfl⟩⟩

theorem Becomes.trans (h : s.Becomes now t j) (h' : t.Becomes now u k) :
    s.Becomes now u (j ++ k) where
  lastClose := by rw [h'.lastClose, h.lastClose, Journal.lastly_append]
  isOpen := by
    intro hopen
    rw [List.any_append, List.any_append]
    rcases h'.isOpen hopen with hstart | ⟨hbefore, hfinish'⟩
    · exact .inl (by rw [hstart, Bool.or_true])
    · rcases h.isOpen hbefore with hstart | ⟨hfirst, hfinish⟩
      · exact .inl (by rw [hstart, Bool.true_or])
      · exact .inr ⟨hfirst, by rw [hfinish, hfinish', Bool.or_false]⟩

/-- An entry that neither starts nor finishes a bundle goes with a slot that stays as it is in these
two respects. -/
theorem Becomes.quiet (h : s.Becomes now t j) (hopen : u.isOpen = t.isOpen)
    (hlast : u.lastClose = t.lastClose) (hk : k.any Entry.isStart = false)
    (hk' : k.any Entry.isFinish = false) : s.Becomes now u (j ++ k) where
  lastClose := by rw [hlast, h.lastClose, Journal.lastly_append, Journal.lastly_of_not_any hk']
  isOpen := by
    rw [hopen, List.any_append, List.any_append, hk, hk', Bool.or_false, Bool.or_false]
    exact h.isOpen

theorem Becomes.started (h : t.lastClose = j.lastly Entry.isFinish now s.lastClose) :
    s.Becomes now t (j ++ [.started]) where
  lastClose := by rw [h, Journal.lastly_append, Journal.lastly_of_not_any (j := [.started]) rfl]
  isOpen := fun _ ↦ .inl (by rw [List.any_append]; exact Bool.or_true _)

end Slot

/-! ### On the way -/

namespace Stage

variable {α β : Type}

/-- What the slot and the new entries of the journal are while a call waits that is not about
starting or stopping the coordinator. -/
def Bears (now : Int64) (s t : Slot) (j : Journal α) : Stage α β → Prop
  | starting _ => t.lastClose = j.lastly Entry.isFinish now s.lastClose
  | finishing _ => t.isOpen = false
  | draining _ | emitting _ _ _ _ => t.isOpen = false ∧ j.any Entry.isFinish = true
  | processing _ | releasing _ _ | forwarding _ | ended _ => s.Becomes now t j
  | queued | opening | queuedToRelease _ | closingUnit _ => False

end Stage

namespace Coordinator

section Unit

variable {α β : Type} {c : Coordinator} {i : Nat} {q : Request α} {s : Stage α β}
  {results : List β} {out : Coordinator × Stage α β}

theorem Parting.hasUnit_of_ok {closed : Bool} (h : Parting i q c (.ok closed) out)
    (hq : q ≠ .stop) : out.1.hasUnit = c.hasUnit := by
  cases h with
  | forwards | answers => rfl
  | departs _ _ _ _ hstop => exact absurd hstop hq

theorem Emission.hasUnit_of_ok {close : Close} {total : Nat} {rest : List β}
    (h : Emission i q c close total rest out) (hq : q ≠ .stop) :
    out.1.hasUnit = c.hasUnit := by
  cases h with
  | more | lets => rfl
  | last _ _ h => exact h.hasUnit_of_ok hq

/-- Only a release takes the unit. -/
theorem Turn.hasUnit_of_ok (h : Turn i q c s (.ok results) out) (hsuits : Suits q s)
    (hq : q.Ingests) : out.1.hasUnit = c.hasUnit := by
  have hstop : q ≠ .stop := by rintro rfl; exact hq
  cases h with
  | idles _ _ _ _ _ _ h | fillsNone _ _ _ _ _ h => exact h.hasUnit_of_ok hstop
  | drained _ _ _ h => exact h.hasUnit_of_ok hstop
  | emitted _ _ _ _ _ _ h => exact h.hasUnit_of_ok hstop
  | released _ _ _ _ h => exact h.hasUnit_of_ok hstop
  | takesUnit => rcases hsuits with rfl | rfl <;> exact hq.elim
  | _ => rfl

end Unit

variable {α : Type} {first c : Coordinator} {i : Nat} {q : Request α} {s : Stage α α}
  {j : Journal α} {results : List α} {out : Coordinator × Stage α α}

/-- How far a call has come that began with the coordinator like this, and with these entries added
to the journal since. -/
structure Passes (q : Request α) (first c : Coordinator) (s : Stage α α) (j : Journal α) :
    Prop where
  alike : c.Alike first
  hasUnit : c.hasUnit = first.hasUnit
  suits : Suits q s
  bears : s.Bears first.timer.now first.slot c.slot j
  starts : j.any Entry.isStart = true → ∃ x, q = .submit x

theorem Parting.bears {closed : Bool} {old : Slot} {now : Int64}
    (h : Parting i q c (.ok closed) out) (hq : q ≠ .stop) (hslot : old.Becomes now c.slot j) :
    out.2.Bears now old out.1.slot j := by
  cases h with
  | forwards | answers => exact hslot
  | departs _ _ _ _ hstop => exact absurd hstop hq

/-- A close that has finished its bundle leaves nothing open, and is the last one once it is
complete. -/
theorem Emission.bears {close : Close} {total : Nat} {rest : List α} {old : Slot} {now : Int64}
    (h : Emission i q c close total rest out) (hq : q ≠ .stop) (hnow : c.timer.now = now)
    (hclosed : c.slot.isOpen = false) (hfinish : j.any Entry.isFinish = true) :
    out.2.Bears now old out.1.slot j := by
  have hsettled : old.Becomes now (c.settled close total).slot j :=
    ⟨hnow.trans (Journal.lastly_of_any hfinish _ _).symm,
      fun hopen ↦ absurd (hclosed.symm.trans hopen) (by simp)⟩
  cases h with
  | more => exact ⟨hclosed, hfinish⟩
  | lets => exact hsettled
  | last _ _ h => exact h.bears hq hsettled

/-- The stretch with which a call gets the lock. -/
theorem Turn.passes_of_queued (h : Turn i q c .queued (.ok results) out) (hq : q.Ingests) :
    Passes q c out.1 out.2 [] := by
  have hstop : q ≠ .stop := by rintro rfl; exact hq
  refine ⟨h.alike trivial hq, h.hasUnit_of_ok trivial hq, h.suits trivial, ?_, by simp⟩
  have hsame : c.slot.Becomes c.timer.now c.slot ([] : Journal α) := .refl _ _
  cases h with
  | refused | continues | forwards => exact hsame
  | starts | closes => rfl
  | holds => exact ⟨rfl, hsame.isOpen⟩
  | idles _ _ _ _ _ _ h => exact h.bears hstop hsame
  | passes _ hshutdown => subst hshutdown; exact hq.elim
  | opens _ hstart => subst hstart; exact hq.elim

/-- The stretch that a collaborator's success makes a call go on with, and the entry that the
success leaves in the journal. -/
theorem Turn.passes_of_ok {op : Operation α α} (h : Turn i q c s (.ok results) out)
    (hpasses : Passes q first c s j) (hq : q.Ingests) (hop : s.operation? = some op) :
    Passes q first out.1 out.2 (j ++ op.entryOf.toList) := by
  have hstop : q ≠ .stop := by rintro rfl; exact hq
  have hnow : c.timer.now = first.timer.now := congrArg Timer.now hpasses.alike.timer
  refine ⟨(h.alike hpasses.suits hq).trans hpasses.alike,
    (h.hasUnit_of_ok hpasses.suits hq).trans hpasses.hasUnit, h.suits hpasses.suits, ?_, ?_⟩
  · have hbears := hpasses.bears
    have hfinish (e : Option (Entry α)) (h : j.any Entry.isFinish = true) :
        (j ++ e.toList).any Entry.isFinish = true := by
      rw [List.any_append, h, Bool.true_or]
    cases h with
    | started x =>
      cases hop
      exact .started hbears
    | accepts =>
      cases hop
      exact hbears.quiet rfl rfl rfl rfl
    | fills => exact rfl
    | fillsNone _ _ _ _ _ h =>
      cases hop
      exact h.bears hstop (hbears.quiet rfl rfl rfl rfl)
    | finished =>
      cases hop
      exact ⟨hbears, by simp [Operation.entryOf, Entry.isFinish]⟩
    | drained _ _ _ h => exact h.bears hstop hnow hbears.1 (hfinish _ hbears.2)
    | emitted _ _ _ _ _ _ h => exact h.bears hstop hnow hbears.1 (hfinish _ hbears.2)
    | released _ _ _ _ h =>
      cases hop
      exact h.bears hstop (hbears.quiet rfl rfl rfl rfl)
    | forwarded =>
      cases hop
      exact hbears.quiet rfl rfl rfl rfl
    | schedulesNot | runs | settles => exact hbears.elim
    | _ => cases hop
  · intro hstart
    rw [List.any_append, Bool.or_eq_true] at hstart
    rcases hstart with hstart | hstart
    · exact hpasses.starts hstart
    · have hsuits := hpasses.suits
      cases s with
      | starting x => exact ⟨x, hsuits⟩
      | _ => cases hop <;> cases hstart

end Coordinator

/-! ### To the end -/

namespace Rig

open Coordinator

variable {α : Type} {l : Limits} {r : Rig α} {q : Request α} {first : Coordinator}

/-- A call that has come to its collaborators comes to its end. -/
theorem ComesBy.concludes {c : Coordinator} {s : Stage α α} {recorder : Recorder α}
    {j : Journal α} (h : r.ComesBy q (c, s) recorder) (hq : q.Ingests)
    (hwilling : recorder.Willing) (hjournal : recorder.journal = r.recorder.journal ++ j)
    (hpasses : Passes q first c s j) :
    ∃ (d : Coordinator) (reply : Reply) (last : Recorder α) (k : Journal α),
      r.attend q = ⟨⟨d.relock {}, r.world.calls ++ [⟨q, .ended reply⟩]⟩, last⟩ ∧
      last.Willing ∧ last.journal = r.recorder.journal ++ k ∧
      Passes q first d (.ended reply) k := by
  have hstop : q ≠ .stop := by rintro rfl; exact hq
  cases hop : s.operation? with
  | none =>
    have hbears := hpasses.bears
    cases s with
    | ended reply => exact ⟨c, reply, recorder, j, h.attend_eq, hwilling, hjournal, hpasses⟩
    | queued | queuedToRelease => exact hbears.elim
    | _ => cases hop
  | some op =>
    have hsome : s.operation?.isSome = true := by rw [hop]; rfl
    have hcarried : (recorder.carryOut op).2.journal =
        r.recorder.journal ++ (j ++ op.entryOf.toList) := by
      rw [← List.append_assoc, ← hjournal]
      cases op <;> first | rfl | exact (List.append_nil _).symm
    exact (h.resume 0 op hstop hwilling hop).concludes hq (hwilling.carryOut op) hcarried
      ((turn_resume c 0 q s _ hsome).passes_of_ok hpasses hq hop)
termination_by (s.rank, s.remaining)
decreasing_by exact Coordinator.resume_before _ _ _ _ _ hsome

/-- A started coordinator that nobody uses at the moment, with collaborators that do what they are
asked to. -/
structure Ready (l : Limits) (r : Rig α) : Prop where
  lock : r.world.coordinator.lock = {}
  phase : r.world.coordinator.phase = .running
  latched : r.world.coordinator.latched = none
  hasUnit : r.world.coordinator.hasUnit = true
  policy : r.world.coordinator.policy = l.policy
  willing : r.recorder.Willing

/-- What the calls made between two moments of rest have come to, with the clock standing still. -/
structure Handled (r r' : Rig α) (j : Journal α) : Prop where
  timer : r'.world.coordinator.timer = r.world.coordinator.timer
  journal : r'.recorder.journal = r.recorder.journal ++ j
  slot : r.world.coordinator.slot.Becomes r.world.coordinator.timer.now
    r'.world.coordinator.slot j

theorem Handled.refl (r : Rig α) : r.Handled r [] :=
  ⟨rfl, (List.append_nil _).symm, .refl _ _⟩

theorem Handled.trans {r r' r'' : Rig α} {j k : Journal α} (h : r.Handled r' j)
    (h' : r'.Handled r'' k) : r.Handled r'' (j ++ k) where
  timer := h'.timer.trans h.timer
  journal := by rw [h'.journal, h.journal, List.append_assoc]
  slot := h.slot.trans (h.timer ▸ h'.slot)

/-- Nobody is declined, so that an age check too does what it would do with the lock. -/
theorem Ready.comesBy (h : r.Ready l) (hq : q.Ingests) :
    r.ComesBy q (r.world.coordinator.enter 0 q) r.recorder := by
  have hrunning (doing : String) : r.world.coordinator.running doing = .ok () :=
    (running_eq_ok_iff _ doing).mpr ⟨h.latched, h.phase⟩
  have hhealthy : r.world.coordinator.healthy = .ok () := by
    unfold healthy
    rw [h.latched]
  refine comesBy_enter 0 (by rw [← h.lock]; rfl) (by rintro rfl; exact hq)
    (by rintro rfl; exact hq) ?_
  cases q with
  | tick | checkAge => exact .inl rfl
  | start | stop | shutdown => exact hq.elim
  | submit | watermark => exact .inr (by simp [early, hrunning])
  | barrier | endInput => exact .inr (by simp [early, hhealthy])
  | finish => exact .inr rfl

/-- A call on a coordinator that is ready comes to its end and leaves it ready. -/
theorem Ready.attend (h : r.Ready l) (hq : q.Ingests) :
    ∃ (reply : Reply) (j : Journal α),
      (r.attend q).world.stage? r.world.calls.length = some (.ended reply) ∧
      (r.attend q).Ready l ∧ r.Handled (r.attend q) j := by
  obtain ⟨d, reply, last, k, hattend, hwilling, hjournal, hpasses⟩ :=
    (h.comesBy hq).concludes hq h.willing (List.append_nil _).symm
      ((turn_enter r.world.coordinator 0 q (.ok [])).passes_of_queued hq)
  have halike := hpasses.alike
  refine ⟨reply, k, ?_, ?_, ?_⟩
  · rw [hattend]
    simp [World.stage?]
  · rw [hattend]
    exact ⟨rfl, halike.phase.trans h.phase, halike.latched.trans h.latched,
      hpasses.hasUnit.trans h.hasUnit, halike.policy.trans h.policy, hwilling⟩
  · rw [hattend]
    exact ⟨halike.timer, hjournal, hpasses.bears⟩

/-- A bundle that is still open after a tick is not old enough to be closed. -/
theorem Ready.isExpired_of_attend_tick (h : r.Ready l)
    (hopen : (r.attend .tick).world.coordinator.slot.isOpen = true) :
    r.world.coordinator.isExpired = false := by
  rw [← Bool.not_eq_true]
  intro hexpired
  have hcomes := h.comesBy (q := .tick) trivial
  have henter : (r.world.coordinator.enter 0 .tick : Coordinator × Stage α α) =
      r.world.coordinator.beginClose 0 .tick .bundleAge := if_pos ⟨h.phase, hexpired⟩
  rw [henter] at hcomes
  -- seen from the moment at which the flag has fallen, the call opens nothing
  have hpasses : Passes .tick
      { r.world.coordinator with slot := r.world.coordinator.slot.tryClose.2 }
      (r.world.coordinator.beginClose 0 .tick .bundleAge : Coordinator × Stage α α).1
      (r.world.coordinator.beginClose 0 .tick .bundleAge).2 ([] : Journal α) := by
    cases hbefore : r.world.coordinator.slot.isOpen with
    | true =>
      have hbegins : (r.world.coordinator.beginClose 0 .tick .bundleAge :
          Coordinator × Stage α α) =
            ({ r.world.coordinator with slot := r.world.coordinator.slot.tryClose.2 },
              .finishing ⟨.bundleAge, r.world.coordinator.slot.items⟩) := by
        unfold beginClose
        exact if_pos (by rw [h.hasUnit, hbefore]; rfl)
      rw [hbegins]
      exact ⟨.refl _, rfl, trivial, rfl, by simp⟩
    | false =>
      have hidle : (r.world.coordinator.beginClose 0 .tick .bundleAge :
          Coordinator × Stage α α) = r.world.coordinator.leave .done := by
        unfold beginClose
        rw [hbefore, Bool.and_false]
        rfl
      rw [hidle]
      exact ⟨⟨rfl, rfl, rfl, rfl⟩, rfl, trivial,
        ⟨rfl, fun hopen ↦ absurd (hbefore.symm.trans hopen) (by simp)⟩, by simp⟩
  obtain ⟨d, reply, last, k, hattend, -, -, hend⟩ :=
    hcomes.concludes trivial h.willing (List.append_nil _).symm hpasses
  rw [hattend] at hopen
  rcases hend.bears.isOpen hopen with hstart | ⟨hfirst, -⟩
  · obtain ⟨x, hx⟩ := hend.starts hstart
    cases hx
  · cases hfirst

end Rig

end Bundling
