import Bundling.Proofs.Line
import Bundling.Proofs.OneAtATime

/-!
What a call sees of the coordinator while another one has its turn. A turn of a call that ingests
changes neither the phase nor the timer, and the slot only goes on from open to closed, so that a
call which is declined in the middle of the turn would be declined in the same way at its end.
-/

set_option autoImplicit false
set_option relaxedAutoImplicit false

namespace Bundling

namespace Slot

/-- What a slot may become in the rest of a turn: closed, or still open since the same close. -/
def GoesOn (s t : Slot) : Prop := t.isOpen = false ∨ s.isOpen = true ∧ t.lastClose = s.lastClose

theorem GoesOn.refl (s : Slot) : s.GoesOn s := by
  cases hopen : s.isOpen with
  | false => exact .inl hopen
  | true => exact .inr ⟨hopen, rfl⟩

theorem GoesOn.trans {s t u : Slot} (h : s.GoesOn t) (h' : t.GoesOn u) : s.GoesOn u := by
  rcases h' with hclosed | ⟨hopen, hlast⟩
  · exact .inl hclosed
  · rcases h with hclosed | ⟨hopen', hlast'⟩
    · exact absurd (hclosed.symm.trans hopen) (by simp)
    · exact .inr ⟨hopen', hlast.trans hlast'⟩

end Slot

namespace Stage

variable {α β : Type}

/-- A stage of a call that is handing its item to the unit, the only ones at which a bundle may be
open. -/
def handsOver : Stage α β → Bool
  | starting _ | processing _ => true
  | _ => false

end Stage

namespace Coordinator

variable {α β : Type}

/-- Coordinators that differ in nothing but what the turns of ingesting calls change. -/
structure Alike (c d : Coordinator) : Prop where
  phase : c.phase = d.phase
  latched : c.latched = d.latched
  policy : c.policy = d.policy
  timer : c.timer = d.timer

theorem Alike.refl (c : Coordinator) : c.Alike c := ⟨rfl, rfl, rfl, rfl⟩

theorem Alike.symm {c d : Coordinator} (h : c.Alike d) : d.Alike c :=
  ⟨h.phase.symm, h.latched.symm, h.policy.symm, h.timer.symm⟩

theorem Alike.trans {c d e : Coordinator} (h : c.Alike d) (h' : d.Alike e) : c.Alike e :=
  ⟨h.phase.trans h'.phase, h.latched.trans h'.latched, h.policy.trans h'.policy,
    h.timer.trans h'.timer⟩

/-- Only age checks look at the slot before they ask for the lock. -/
theorem Alike.early {c d : Coordinator} (h : c.Alike d) {q : Request α}
    (hq : q.looksFirst = false) : c.early q = d.early q := by
  have hrunning (doing : String) : c.running doing = d.running doing := by
    unfold running
    rw [h.latched, h.phase]
  have hhealthy : c.healthy = d.healthy := by
    unfold healthy
    rw [h.latched]
  cases q with
  | checkAge | tick => cases hq
  | submit | watermark => simp only [Coordinator.early, hrunning]
  | barrier | endInput => simp only [Coordinator.early, hhealthy]
  | stop => simp only [Coordinator.early, h.phase]
  | start | finish | shutdown => rfl

/-- A call that is declined in the middle of a turn would be declined at its end as well. -/
theorem Alike.early_of_goesOn {c d : Coordinator} (h : c.Alike d) (hslot : c.slot.GoesOn d.slot)
    {q : Request α} {r : Reply} (hearly : c.early q = some r) : d.early q = some r := by
  cases hq : q.looksFirst with
  | false => rw [← h.early hq, hearly]
  | true =>
    rw [early_of_looksFirst _ hq] at hearly ⊢
    obtain ⟨hrest, hreply⟩ : c.restful = true ∧ q.verdict false = r := by simpa using hearly
    have hrest' : d.restful = true := by
      rcases hslot with hclosed | ⟨hopen, hlast⟩
      · simp [restful, hclosed]
      · have hexpired : d.isExpired = c.isExpired := by
          unfold isExpired Slot.age
          rw [h.policy, h.timer, hlast]
        simp only [restful, hopen, h.phase, Bool.not_true, Bool.or_false, ← hexpired] at hrest
        unfold restful
        rw [Bool.or_right_comm, hrest, Bool.true_or]
    rw [if_pos hrest', hreply]

variable {i : Nat} {q : Request α} {c : Coordinator} {out : Coordinator × Stage α β}

/-! ### What a turn leaves alone -/

theorem Parting.eq_of_ok {closed : Bool} (h : Parting i q c (.ok closed) out) (hq : q ≠ .stop) :
    out.1.slot = c.slot ∧ out.1.Alike c := by
  cases h with
  | forwards | answers => exact ⟨rfl, ⟨rfl, rfl, rfl, rfl⟩⟩
  | departs _ _ _ _ hstop => exact absurd hstop hq

theorem Emission.alike {close : Close} {total : Nat} {results : List β}
    (h : Emission i q c close total results out) (hq : q ≠ .stop) : out.1.Alike c := by
  cases h with
  | more | lets => exact ⟨rfl, rfl, rfl, rfl⟩
  | last _ _ h => exact (h.eq_of_ok hq).2.trans ⟨rfl, rfl, rfl, rfl⟩

theorem Emission.isOpen {close : Close} {total : Nat} {results : List β}
    (h : Emission i q c close total results out) (hq : q ≠ .stop) :
    out.1.slot.isOpen = c.slot.isOpen := by
  cases h with
  | more | lets => rfl
  | last _ _ h => rw [(h.eq_of_ok hq).1]; rfl

theorem Turn.alike {s : Stage α β} {results : List β} (h : Turn i q c s (.ok results) out)
    (hsuits : Suits q s) (hq : q.Ingests) : out.1.Alike c := by
  have hstop : q ≠ .stop := by rintro rfl; exact hq
  have hstart : q ≠ .start := by rintro rfl; exact hq
  have hshutdown : q ≠ .shutdown := by rintro rfl; exact hq
  cases h with
  | idles _ _ _ _ _ _ h => exact (h.eq_of_ok hstop).2
  | fillsNone _ _ _ _ _ h => exact (h.eq_of_ok hstop).2.trans ⟨rfl, rfl, rfl, rfl⟩
  | drained _ _ _ h => exact h.alike hstop
  | emitted _ _ _ _ _ _ h => exact h.alike hstop
  | released _ _ _ _ h => exact (h.eq_of_ok hstop).2.trans ⟨rfl, rfl, rfl, rfl⟩
  | schedulesNot | runs => exact absurd hsuits hstart
  | _ => exact ⟨rfl, rfl, rfl, rfl⟩

/-- A call that goes on after its close goes on to forward a watermark. -/
theorem Parting.watermark {closed : Bool} (h : Parting i q c (.ok closed) out) (hq : q ≠ .stop)
    (hop : out.2.operation?.isSome = true) : ∃ w, q = .watermark w := by
  cases h with
  | forwards w _ hq => exact ⟨w, hq⟩
  | answers => cases hop
  | departs _ _ _ _ hstop => exact absurd hstop hq

variable {s : Stage α β} {results : List β}

/-- After a stretch that the call goes on from, a bundle is open only if the call is handing its
item over. -/
theorem Turn.handsOver (h : Turn i q c s (.ok results) out) (hsuits : Suits q s) (hq : q.Ingests)
    (hbefore : s.operation?.isSome = true → c.slot.isOpen = true → s.handsOver = true)
    (hop : out.2.operation?.isSome = true) (hopen : out.1.slot.isOpen = true) :
    out.2.handsOver = true := by
  have hstop : q ≠ .stop := by rintro rfl; exact hq
  have hclosing {close : Close} {d : Coordinator} {total : Nat} {rest : List β}
      (h : Emission i q d close total rest out) (hd : d.slot = c.slot)
      (hs : s.operation?.isSome = true) : s.handsOver = true := by
    refine hbefore hs ?_
    rw [← hd, ← h.isOpen hstop]
    exact hopen
  cases h with
  | opens _ hstart => subst hstart; exact hq.elim
  | continues | starts | started => rfl
  | forwards _ _ _ _ _ hclosed => exact absurd (hclosed.symm.trans hopen) (by simp)
  | closes | fills => cases hopen
  | idles _ _ _ _ hidle hmark h =>
    obtain ⟨w, rfl⟩ := h.watermark hstop hop
    have hadmitted := hmark w rfl
    rw [(h.eq_of_ok hstop).1, hidle hadmitted hadmitted.2.2] at hopen
    cases hopen
  | takesUnit => rcases hsuits with rfl | rfl <;> exact hq.elim
  | fillsNone x _ _ _ _ h =>
    obtain ⟨w, hw⟩ := h.watermark hstop hop
    exact absurd (hw.symm.trans hsuits) (by simp)
  | finished => exact absurd (hbefore rfl hopen) (by simp [Stage.handsOver])
  | drained _ _ _ h => exact absurd (hclosing h rfl rfl) (by simp [Stage.handsOver])
  | emitted _ _ _ _ _ _ h => exact absurd (hclosing h rfl rfl) (by simp [Stage.handsOver])
  | released _ _ _ _ h =>
    rw [(h.eq_of_ok hstop).1] at hopen
    exact absurd (hbefore rfl hopen) (by simp [Stage.handsOver])
  | _ => cases hop

/-- A call that has come to its collaborators opens no bundle, and completes no close while one is
open. -/
theorem Turn.goesOn (h : Turn i q c s (.ok results) out) (hsuits : Suits q s) (hq : q.Ingests)
    (hbefore : s.operation?.isSome = true → c.slot.isOpen = true → s.handsOver = true)
    (hop : s.operation?.isSome = true) : c.slot.GoesOn out.1.slot := by
  have hstop : q ≠ .stop := by rintro rfl; exact hq
  have hclosed (hopen : out.1.slot.isOpen = c.slot.isOpen) (hs : s.handsOver = false) :
      c.slot.GoesOn out.1.slot := by
    refine .inl (hopen.trans (Bool.eq_false_iff.mpr fun h ↦ ?_))
    exact absurd ((hbefore hop h).symm.trans hs) (by simp)
  have hcounted : c.slot.GoesOn c.counted.slot := Slot.GoesOn.refl c.slot
  cases h with
  | started | finished | forwarded => exact .refl _
  | accepts => exact hcounted
  | fills | settles => exact .inl rfl
  | fillsNone _ _ _ _ _ h =>
    rw [(h.eq_of_ok hstop).1]
    exact hcounted
  | drained _ _ _ h => exact hclosed (h.isOpen hstop) rfl
  | emitted _ _ _ _ _ _ h => exact hclosed (h.isOpen hstop) rfl
  | released _ _ _ _ h => exact hclosed (by rw [(h.eq_of_ok hstop).1]; rfl) rfl
  | schedulesNot | runs => subst hsuits; exact hq.elim
  | _ => cases hop

end Coordinator

end Bundling
