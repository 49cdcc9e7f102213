import Bundling.Proofs.Balance

/-!
Watermarks and acknowledged drains against results. A watermark goes out, and a barrier or the end
of input is acknowledged, with every item taken so far emitted, unless an earlier close has failed
and left results behind. A failed close lowers the open flag and keeps the coordinator running, so
nothing holds later watermarks and barriers back, and the exception is real.
-/

set_option autoImplicit false
set_option relaxedAutoImplicit false

namespace Bundling

namespace Coordinator

variable {α β : Type} {c : Coordinator} {i : Nat} {q : Request α}

theorem Parting.isOpen_of_done {result : Except Failure Bool} {out : Coordinator × Stage α β}
    (hout : Parting i q c result out) (hq : q.Drains) (hdone : out.2 = .ended .done)
    (hopen : c.hasUnit = true → c.slot.isOpen = false) (hunit : out.1.hasUnit = true) :
    out.1.slot.isOpen = false := by
  cases hout with
  | forwards => cases hdone
  | answers => exact hopen hunit
  | fails => cases hdone
  | latches _ _ htick => rcases hq with rfl | ⟨id, rfl⟩ <;> cases htick
  | departs _ _ _ _ hstop => rcases hq with rfl | ⟨id, rfl⟩ <;> cases hstop

/-- A turn that acknowledges a drain leaves no bundle open, as long as the unit is there. -/
theorem Turn.isOpen_of_done {s : Stage α β} {a : Except Failure (List β)}
    {out : Coordinator × Stage α β} (hout : Turn i q c s a out) (hsuits : Suits q s)
    (hfits : c.Fits s) (hq : q.Drains) (hdone : out.2 = .ended .done)
    (hunit : out.1.hasUnit = true) : out.1.slot.isOpen = false := by
  have hemission {close : Close} {total : Nat} {results : List β}
      (h : Emission i q c close total results out) (hopen : c.slot.isOpen = false) :
      out.1.slot.isOpen = false := by
    cases h with
    | more | lets => cases hdone
    | last _ _ hparts => exact hparts.isOpen_of_done hq hdone (fun _ ↦ hopen) hunit
  cases hout with
  | idles _ _ _ _ hidle _ hparts =>
    refine hparts.isOpen_of_done hq hdone (hidle ?_) hunit
    rcases hq with rfl | ⟨id, rfl⟩ <;> trivial
  | finishesNot _ _ _ hparts => exact hparts.isOpen_of_done hq hdone (fun _ ↦ hfits.2.2) hunit
  | drainsNot _ _ _ hparts => exact hparts.isOpen_of_done hq hdone (fun _ ↦ hfits.2.2) hunit
  | drained _ _ _ h => exact hemission h hfits.2.2
  | emitsNot _ _ _ _ _ _ hparts =>
    exact hparts.isOpen_of_done hq hdone (fun _ ↦ hfits.2.2) hunit
  | emitted _ _ _ _ _ _ h => exact hemission h hfits.2.2
  | releasesNot _ _ _ _ hparts => exact hparts.isOpen_of_done hq hdone (fun _ ↦ hfits.2.2) hunit
  | released _ _ _ _ hparts => exact hparts.isOpen_of_done hq hdone (fun _ ↦ hfits.2.2) hunit
  | passes _ hpass | holds _ _ hpass =>
    rcases hq with rfl | ⟨id, rfl⟩ <;> cases hpass
  | runs | accepts | fillsNone | forwarded =>
    rcases hq with rfl | ⟨id, rfl⟩ <;> cases hsuits
  | findsNoUnit | settles =>
    rcases hq with rfl | ⟨id, rfl⟩ <;> rcases hsuits with hsuits | hsuits <;> cases hsuits
  | _ => cases hdone

end Coordinator

namespace World

variable {α β : Type}

/-- Where a drain is acknowledged, nothing is under way or due, and no bundle is open. -/
theorem Reaches.drained_of_advance {id : String} {checked : Checked} {timer : Timer}
    {w w' : World α β} {t new : History α β} (h : Reaches (created id checked timer) w t)
    (hadvance : Advance w w' new) {i : Nat} {q : Request α} (hq : q.Drains)
    (hdone : .replied i q .done ∈ new) :
    Conduct w'.coordinator none [] (t ++ new) ∧
      (w'.coordinator.hasUnit = true → w'.coordinator.slot.isOpen = false) := by
  cases hadvance with
  | declines q' r hdeclines =>
    simp only [List.mem_cons, List.not_mem_nil, or_false, reduceCtorEq, false_or] at hdone
    cases hdone
    rcases hq with rfl | ⟨id, rfl⟩ <;>
      exact absurd rfl (hdeclines.ne_done (by simp) (by simp) (by simp))
  | joins => simp at hdone
  | retimes => cases hdone
  | turns j call answer out hcall hlock hturn =>
    obtain ⟨rfl, rfl, hended⟩ := Event.eq_of_replied_mem_turn hdone
    have horderly := h.orderly (orderly_created id checked timer)
    have hconducts := h.conducts
    rw [acting_of_holder hlock hcall] at hconducts
    have hnext := (hturn.conducts hconducts).conduct
    rw [hended] at hnext
    have hsuits := horderly.suits call (List.mem_of_getElem? hcall)
    rw [hended]
    exact ⟨hnext, hturn.isOpen_of_done hsuits hconducts.fits hq hended⟩

theorem Reaches.drained {id : String} {checked : Checked} {timer : Timer} {w : World α β}
    {t : History α β} (h : Reaches (created id checked timer) w t) {m : Move α β} {i : Nat}
    {q : Request α} (hq : q.Drains) (hdone : .replied i q .done ∈ w.events m) :
    Conduct (w.step m).coordinator none [] (t ++ w.events m) ∧
      ((w.step m).coordinator.hasUnit = true → (w.step m).coordinator.slot.isOpen = false) := by
  have horderly := h.orderly (orderly_created id checked timer)
  rcases horderly.step_cases m with ⟨-, hevents⟩ | hadvance |
    ⟨j, q', joined, new, hjoins, hturns, hevents⟩
  · rw [hevents] at hdone
    cases hdone
  · exact h.drained_of_advance hadvance hq hdone
  · rw [hevents] at hdone ⊢
    have hnew : .replied i q .done ∈ new := by simpa using hdone
    rw [List.append_cons]
    exact (h.advance hjoins).drained_of_advance hturns hq hnew

end World

namespace Rig

variable {α : Type}

open History

theorem lawful_trace (id : String) (checked : Checked) (timer : Timer) (failing : List Target)
    (moves : List (Move α)) :
    Standing.Lawful ((created id checked timer failing : Rig α).trace moves) :=
  (reaches id checked timer failing moves).conducts.conduct.lawful

/-- At a forwarded watermark every item taken before it has been emitted, unless a failed close has
left results behind. -/
theorem emitted_eq_processed_at_forwarded_iff (id : String) (checked : Checked) (timer : Timer)
    (failing : List Target) (moves : List (Move α)) (before after : Journal α) (w : Watermark)
    (h : ((created id checked timer failing).run moves).recorder.journal =
      before ++ Entry.forwarded w :: after) :
    ∃ past i results future,
      (created id checked timer failing).trace moves =
          past ++ Event.answered i (.forward w) (.ok results) :: future ∧
        entries past = before ∧
        (before.emitted.length = before.processed.length ↔ ¬ Undelivered past) := by
  have hrecords := records_run id checked timer failing moves
  have hlawful := lawful_trace id checked timer failing moves
  rw [hrecords.journal] at h
  obtain ⟨past, i, results, future, htrace, hpast⟩ := exists_split_of_forwarded h
  have hfaithful := hrecords.faithful
  rw [htrace] at hlawful hfaithful
  refine ⟨past, i, results, future, htrace, hpast, ?_⟩
  rw [← hpast]
  exact emitted_eq_processed_iff_of_forward hlawful hfaithful

/-- A bundle of one item whose close fails in its finish. -/
def failedClose : List (Move Nat) :=
  [.issue .start, .proceed 0 none, .issue (.submit 1), .proceed 1 none, .proceed 1 none,
    .issue .endInput, .proceed 2 (some (.unit "finish_bundle" "injected"))]

/-- The same, and a watermark after it. -/
def overtakingWatermark : List (Move Nat) :=
  failedClose ++ [.issue (.watermark ⟨5⟩), .proceed 3 none]

theorem undelivered_at_forwarded :
    (plain.run overtakingWatermark).recorder.journal =
        [Entry.opened, Entry.started, Entry.processed 1] ++ Entry.forwarded ⟨5⟩ :: [] ∧
      ∃ past i results future,
        plain.trace overtakingWatermark =
            past ++ Event.answered i (.forward ⟨5⟩) (.ok results) :: future ∧ Undelivered past := by
  refine ⟨rfl, ?_⟩
  obtain ⟨past, i, results, future, htrace, -, hiff⟩ := emitted_eq_processed_at_forwarded_iff
    "plain" (Limits.check {}) { kind := .manual false, now := 0 } [] overtakingWatermark
    [.opened, .started, .processed 1] [] ⟨5⟩ rfl
  exact ⟨past, i, results, future, htrace, not_not.mp ((not_congr hiff).mp (by decide))⟩

/-- A watermark does overtake an item: the close over it failed, and left nothing to hold the
watermark back. -/
theorem not_emitted_eq_processed_at_forwarded :
    ¬ ∀ (moves : List (Move Nat)) (before after : Journal Nat) (w : Watermark),
      (plain.run moves).recorder.journal = before ++ Entry.forwarded w :: after →
        before.emitted.length = before.processed.length := by
  intro h
  have hcounts := h overtakingWatermark [.opened, .started, .processed 1] [] ⟨5⟩ rfl
  exact absurd hcounts (by decide)

/-- Where a barrier or the end of input is acknowledged, no bundle is open, and every item taken has
been emitted, unless a failed close has left results behind. -/
theorem emitted_eq_processed_at_drained_iff (id : String) (checked : Checked) (timer : Timer)
    (failing : List Target) (moves : List (Move α)) (m : Move α) {i : Nat} {q : Request α}
    (hq : q.Drains)
    (hdone : .replied i q .done ∈ ((created id checked timer failing).run moves).events m)
    (hunit : ((created id checked timer failing : Rig α).run
      (moves ++ [m])).world.coordinator.hasUnit = true) :
    let r : Rig α := (created id checked timer failing).run (moves ++ [m])
    r.world.coordinator.slot.isOpen = false ∧
      (r.recorder.journal.emitted.length = r.recorder.journal.processed.length ↔
        ¬ Undelivered ((created id checked timer failing).trace (moves ++ [m]))) := by
  intro r
  have hrecords := records_run id checked timer failing (moves ++ [m])
  have hreaches := reaches id checked timer failing moves
  have hworld : r.world = ((created id checked timer failing).run moves).world.run
      (((created id checked timer failing).run moves).worldMoves m) := by
    rw [← world_step, ← run_snoc]
  obtain ⟨hconduct, hshut⟩ : Conduct r.world.coordinator none []
        ((created id checked timer failing).trace (moves ++ [m])) ∧
      (r.world.coordinator.hasUnit = true → r.world.coordinator.slot.isOpen = false) := by
    rw [hworld, trace_snoc]
    unfold events at hdone ⊢
    rcases worldMoves_cases ((created id checked timer failing).run moves) m with hnone | ⟨m', hm'⟩
    · rw [hnone] at hdone
      cases hdone
    · rw [hm'] at hdone ⊢
      simp only [World.trace, List.append_nil] at hdone ⊢
      exact hreaches.drained hq hdone
  have hopen := hshut hunit
  have hbundle : (Standing.after
      ((created id checked timer failing).trace (moves ++ [m]))).inBundle = false := by
    simpa [hopen] using hconduct.bundle hunit
  refine ⟨hopen, ?_⟩
  rw [hrecords.journal]
  refine emitted_eq_processed_iff hconduct.lawful hrecords.faithful hbundle hconduct.due fun j ↦ ?_
  rw [hconduct.underway]
  simp

theorem undelivered_at_drained :
    .replied 3 (.barrier 7) .done ∈ (plain.run failedClose).events (.issue (.barrier 7)) ∧
      let r := plain.run (failedClose ++ [Move.issue (.barrier 7)])
      r.world.coordinator.hasUnit = true ∧ r.world.coordinator.slot.isOpen = false ∧
        Undelivered (plain.trace (failedClose ++ [Move.issue (.barrier 7)])) := by
  have hevents : (plain.run failedClose).events (.issue (.barrier 7)) =
      [.issued 3 (.barrier 7), .replied 3 (.barrier 7) .done] := rfl
  have hdone : .replied 3 (.barrier 7) .done ∈
      (plain.run failedClose).events (.issue (.barrier 7)) := by
    rw [hevents]
    simp
  obtain ⟨hopen, hiff⟩ := emitted_eq_processed_at_drained_iff "plain" (Limits.check {})
    { kind := .manual false, now := 0 } [] failedClose (.issue (.barrier 7)) (.inr ⟨7, rfl⟩) hdone
    rfl
  exact ⟨hdone, rfl, hopen, not_not.mp ((not_congr hiff).mp (by decide))⟩

/-- A barrier is acknowledged over an item that an earlier failed close has not delivered. -/
theorem not_emitted_eq_processed_at_drained :
    ¬ ∀ (moves : List (Move Nat)) (m : Move Nat) (i : Nat) (id : UInt64),
      .replied i (.barrier id) .done ∈ (plain.run moves).events m →
        (plain.run (moves ++ [m])).recorder.journal.emitted.length =
          (plain.run (moves ++ [m])).recorder.journal.processed.length := by
  intro h
  have hevents : (plain.run failedClose).events (.issue (.barrier 7)) =
      [.issued 3 (.barrier 7), .replied 3 (.barrier 7) .done] := rfl
  have hcounts := h failedClose (.issue (.barrier 7)) 3 7 (by rw [hevents]; simp)
  exact absurd hcounts (by decide)

end Rig

end Bundling
