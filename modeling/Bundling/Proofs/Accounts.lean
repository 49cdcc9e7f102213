import Bundling.Proofs.Dealings
import Mathlib.Algebra.Order.Ring.Int
import Mathlib.Data.UInt

/-!
The counters as accounts of a run. Every counter is a word that counts dealings, so it agrees with
their number up to a wrap, failed calls or not; what a failed close leaves in the slot is accounted
for by the slot itself. Three laws of conservation tie the counters to one another: a finished
bundle was closed by one of the triggers, an item that has been processed is in a finished bundle or
in the slot, and a watermark that has been held was superseded, or taken out, or is held still.
-/

set_option autoImplicit false
set_option relaxedAutoImplicit false

namespace Bundling

namespace Dealing

/-- A watermark has been forwarded, by the call that brought it or out of the slot. -/
def isForward : Dealing → Bool
  | forwarded _ | released _ => true
  | _ => false

def isClose : Dealing → Bool
  | closed _ => true
  | _ => false

def isHold : Dealing → Bool
  | held _ _ => true
  | _ => false

def isTakenOut : Dealing → Bool
  | takenOut _ => true
  | _ => false

/-- Every close is put down to one trigger. -/
theorem countP_isClose (ds : List Dealing) :
    ds.countP isClose = (Trigger.all.map fun t ↦ ds.count (closed t)).sum := by
  induction ds with
  | nil => rfl
  | cons d ds ih =>
    rw [List.countP_cons, ih]
    cases d with
    | closed t => cases t <;> simp [Trigger.all, isClose, List.count_cons] <;> omega
    | _ => simp [Trigger.all, isClose]

end Dealing

namespace Holdings

open Dealing

variable {b : Holdings} {ds : List Dealing}

/-- A counter that goes up by one with each dealing of a kind counts them. -/
theorem Deals.counts {f : Tally → UInt64} {p : Dealing → Bool} (h : Deals b ds) (hstart : f {} = 0)
    (hshift : ∀ {b b' : Holdings} {new : List Dealing}, Shift b new b' →
      f b'.tally = f b.tally + .ofNat (new.countP p)) : f b.tally = .ofNat (ds.countP p) := by
  induction h with
  | start => exact hstart
  | shift _ hnext ih => rw [hshift hnext, ih, List.countP_append, UInt64.ofNat_add]

theorem Deals.bundlesStarted (h : Deals b ds) :
    b.tally.bundlesStarted = .ofNat (ds.count started) :=
  h.counts rfl fun hshift ↦ by
    cases hshift <;> simp [Tally.bundleStarted, Tally.itemProcessed, Tally.bundleFinished,
      Tally.watermarkForwarded, Tally.watermarkHeld]

theorem Deals.itemsProcessed (h : Deals b ds) :
    b.tally.itemsProcessed = .ofNat (ds.count processed) :=
  h.counts rfl fun hshift ↦ by
    cases hshift <;> simp [Tally.bundleStarted, Tally.itemProcessed, Tally.bundleFinished,
      Tally.watermarkForwarded, Tally.watermarkHeld]

theorem Deals.watermarksForwarded (h : Deals b ds) :
    b.tally.watermarksForwarded = .ofNat (ds.countP isForward) :=
  h.counts rfl fun hshift ↦ by
    cases hshift <;> simp [isForward, List.countP_cons, Tally.bundleStarted, Tally.itemProcessed,
      Tally.bundleFinished, Tally.watermarkForwarded, Tally.watermarkHeld]

theorem Deals.closes (h : Deals b ds) (t : Trigger) :
    b.tally.closes.get t = .ofNat (ds.count (.closed t)) :=
  h.counts (f := fun n ↦ n.closes.get t) (by cases t <;> rfl) fun hshift ↦ by
    cases hshift with
    | closes u | lets u =>
      by_cases hu : u = t <;> simp [Tally.bundleFinished, Closes.get_bump, hu]
    | _ => simp [Tally.bundleStarted, Tally.itemProcessed, Tally.watermarkForwarded,
        Tally.watermarkHeld]

theorem Deals.bundlesFinished (h : Deals b ds) :
    b.tally.bundlesFinished = .ofNat (ds.countP isClose) :=
  h.counts rfl fun hshift ↦ by
    cases hshift <;> simp [isClose, List.countP_cons, Tally.bundleStarted, Tally.itemProcessed,
      Tally.bundleFinished, Tally.watermarkForwarded, Tally.watermarkHeld]

/-- Some of the processed items are in finished bundles, and the others are counted by the slot. -/
theorem Deals.items (h : Deals b ds) :
    ∃ finished ≤ ds.count processed, b.tally.itemsFinished = .ofNat finished ∧
      b.items = .ofNat (ds.count processed - finished) := by
  induction h with
  | start => exact ⟨0, Nat.le_refl 0, rfl, rfl⟩
  | @shift b b' ds new _ hshift ih =>
    obtain ⟨finished, hle, hfinished, hitems⟩ := ih
    have hall : b.tally.itemsFinished + b.items = .ofNat (ds.count processed) := by
      rw [hfinished, hitems, ← UInt64.ofNat_add, Nat.add_sub_cancel' hle]
    cases hshift with
    | takes =>
      refine ⟨finished, by simp; omega, hfinished, ?_⟩
      have hcount : (ds ++ [processed]).count processed - finished =
          ds.count processed - finished + 1 := by
        simp
        omega
      rw [hcount, UInt64.ofNat_add, ← hitems]
      rfl
    | closes | lets => exact ⟨ds.count processed, by simp, hall, by simp⟩
    | _ => exact ⟨finished, by simpa using hle, hfinished, by simpa using hitems⟩

theorem Deals.watermarksHeld (h : Deals b ds) :
    b.tally.watermarksHeld = .ofNat (ds.countP isHold) :=
  h.counts rfl fun hshift ↦ by
    cases hshift <;> simp [isHold, Tally.bundleStarted, Tally.itemProcessed,
      Tally.bundleFinished, Tally.watermarkForwarded, Tally.watermarkHeld]

/-- Of the watermarks held, some are superseded, some are taken out, and one may be held still. -/
theorem Deals.watermarksSuperseded (h : Deals b ds) :
    ∃ superseded, b.tally.watermarksSuperseded = .ofNat superseded ∧
      ds.countP isHold = superseded + ds.countP isTakenOut + b.held.toList.length := by
  induction h with
  | start => exact ⟨0, rfl, rfl⟩
  | @shift b b' ds new _ hshift ih =>
    obtain ⟨superseded, hword, hcount⟩ := ih
    cases hshift with
    | holds i w =>
      cases hheld : b.held with
      | none =>
        refine ⟨superseded, by simp [Tally.watermarkHeld, hword], ?_⟩
        simp [isHold, isTakenOut, hcount, hheld]
      | some v =>
        refine ⟨superseded + 1, by simp [Tally.watermarkHeld, hword], ?_⟩
        simp [isHold, isTakenOut, hcount, hheld]
        omega
    | lets t results w hheld =>
      refine ⟨superseded, hword, ?_⟩
      simp [isHold, isTakenOut, hcount, hheld]
      omega
    | _ => exact ⟨superseded, hword, by simpa [isHold, isTakenOut] using hcount⟩

end Holdings

namespace History

open Dealing

variable {α β : Type}

/-- How often a collaborator has done what it was asked for by such an operation. -/
def successes (p : Operation α β → Bool) (h : History α β) : Nat :=
  h.countP fun
    | .answered _ op (.ok _) => p op
    | _ => false

/-- Dealings of one kind are the successes of operations of one kind. -/
structure Attests (f : Dealing → Bool) (p : Operation α β → Bool) : Prop where
  started : p .startBundle = f started
  processed : ∀ x, p (.process x) = f processed
  forwarded : ∀ w, p (.forward w) = f (forwarded w)
  released : ∀ w, p (.forward w) = f (released w)
  other : ∀ d, d ≠ .started → d ≠ .processed → d.isForward = false → f d = false
  unseen : p .openUnit = false ∧ p .finishBundle = false ∧ p .drainResults = false ∧
    p .closeUnit = false ∧ ∀ r, p (.emit r) = false

theorem Attests.countP_dealing {f : Dealing → Bool} {p : Operation α β → Bool}
    (hattests : Attests f p) (h : History α β) (e : Event α β) :
    (dealing? h e).toList.countP f = successes p [e] := by
  obtain ⟨hstarted, hprocessed, hforwarded, hreleased, hother, hopen, hfinish, hdrain, hclose,
    hemit⟩ := hattests
  have hclosed (completes : Bool) (i : Nat) :
      (if completes then (triggerOf h i).map closed else none).toList.countP f = 0 := by
    have hf (t : Trigger) : f (closed t) = false := hother _ (by simp) (by simp) rfl
    cases completes <;> cases triggerOf h i <;> simp [hf]
  have hif (b : Bool) {d : Dealing} (hd : f d = false) :
      (if b then none else some d).toList.countP f = 0 := by
    cases b <;> simp [hd]
  cases e with
  | issued => rfl
  | asked i op =>
    cases op with
    | forward w => exact hif _ (hother (takenOut w) (by simp) (by simp) rfl)
    | _ => rfl
  | replied i q r =>
    cases q with
    | watermark w =>
      cases r with
      | done =>
        have hf : f (held i w) = false ∧ f (passed i w) = false :=
          ⟨hother _ (by simp) (by simp) rfl, hother _ (by simp) (by simp) rfl⟩
        cases hbundle : (Standing.after h).inBundle <;> simp [dealing?, hbundle, hf, successes]
      | _ => rfl
    | _ => rfl
  | answered i op a =>
    cases a with
    | error =>
      cases op with
      | forward w => exact hif _ (hother (dropped w) (by simp) (by simp) rfl)
      | _ => rfl
    | ok results =>
      cases op with
      | openUnit => simp [dealing?, successes, hopen]
      | startBundle => simp [dealing?, successes, hstarted]
      | process x => simp [dealing?, successes, hprocessed]
      | finishBundle => simp [dealing?, successes, hfinish]
      | drainResults => simpa [dealing?, successes, hdrain] using hclosed results.isEmpty i
      | closeUnit => simp [dealing?, successes, hclose]
      | emit r =>
        simpa [dealing?, successes, hemit] using hclosed (Standing.after h).due.tail.isEmpty i
      | forward w =>
        cases hbrings : brings h i w <;>
          simp [dealing?, successes, hbrings, ← hforwarded, ← hreleased]

theorem Attests.countP_dealings {f : Dealing → Bool} {p : Operation α β → Bool}
    (hattests : Attests f p) (h : History α β) : (dealings h).countP f = successes p h := by
  induction h using List.reverseRecOn with
  | nil => rfl
  | append_singleton h e ih =>
    rw [dealings_snoc, List.countP_append, ih, hattests.countP_dealing]
    exact List.countP_append.symm

theorem attests_started : Attests (α := α) (β := β) (· == started) (· matches .startBundle) :=
  ⟨rfl, fun _ ↦ rfl, fun _ ↦ rfl, fun _ ↦ rfl, by simp +contextual, by simp⟩

theorem attests_processed : Attests (α := α) (β := β) (· == processed) (· matches .process _) :=
  ⟨rfl, fun _ ↦ rfl, fun _ ↦ rfl, fun _ ↦ rfl, by simp +contextual, by simp⟩

theorem attests_forwards : Attests (α := α) (β := β) isForward (· matches .forward _) :=
  ⟨rfl, fun _ ↦ rfl, fun _ ↦ rfl, fun _ ↦ rfl, by simp, by simp⟩

end History

namespace Holdings

open Dealing

variable {b : Holdings} {ds : List Dealing}

/-- The counters and the slot add up. -/
structure Balanced (b : Holdings) (ds : List Dealing) : Prop where
  bundles : b.tally.bundlesFinished = (Trigger.all.map b.tally.closes.get).sum
  items : b.tally.itemsProcessed = b.tally.itemsFinished + b.items
  watermarks : b.tally.watermarksHeld = b.tally.watermarksSuperseded +
    .ofNat (ds.countP isTakenOut) + .ofNat b.held.toList.length

theorem Deals.balanced (h : Deals b ds) : b.Balanced ds where
  bundles := by
    rw [h.bundlesFinished, countP_isClose]
    simp [Trigger.all, h.closes]
  items := by
    obtain ⟨finished, hle, hfinished, hitems⟩ := h.items
    rw [h.itemsProcessed, hfinished, hitems, ← UInt64.ofNat_add, Nat.add_sub_cancel' hle]
  watermarks := by
    obtain ⟨superseded, hword, hcount⟩ := h.watermarksSuperseded
    rw [h.watermarksHeld, hword, hcount, UInt64.ofNat_add, UInt64.ofNat_add]

/-- The numbers in the counters and in the slot add up, each law for as long as the counter of its
left side has not wrapped. -/
structure BalancedNumbers (b : Holdings) (ds : List Dealing) : Prop where
  bundles : ds.countP isClose < 2 ^ 64 →
    b.tally.bundlesFinished.toNat = (Trigger.all.map fun t ↦ (b.tally.closes.get t).toNat).sum
  items : ds.count processed < 2 ^ 64 →
    b.tally.itemsProcessed.toNat = b.tally.itemsFinished.toNat + b.items.toNat
  watermarks : ds.countP isHold < 2 ^ 64 →
    b.tally.watermarksHeld.toNat = b.tally.watermarksSuperseded.toNat +
      ds.countP isTakenOut + b.held.toList.length

theorem Deals.balancedNumbers (h : Deals b ds) : b.BalancedNumbers ds where
  bundles := by
    intro hlt
    have hcount := countP_isClose ds
    have hcloses (t : Trigger) : (b.tally.closes.get t).toNat = ds.count (closed t) := by
      have hle : ds.count (closed t) ≤ ds.countP isClose :=
        List.countP_mono_left fun d _ hd ↦ by rw [beq_iff_eq.mp hd]; rfl
      rw [h.closes, UInt64.toNat_ofNat_of_lt' (Nat.lt_of_le_of_lt hle hlt)]
    rw [h.bundlesFinished, UInt64.toNat_ofNat_of_lt' hlt, hcount]
    simp only [hcloses]
  items := by
    intro hlt
    obtain ⟨finished, hle, hfinished, hitems⟩ := h.items
    rw [h.itemsProcessed, hfinished, hitems, UInt64.toNat_ofNat_of_lt' hlt,
      UInt64.toNat_ofNat_of_lt' (Nat.lt_of_le_of_lt hle hlt),
      UInt64.toNat_ofNat_of_lt' (Nat.lt_of_le_of_lt (Nat.sub_le _ _) hlt)]
    omega
  watermarks := by
    intro hlt
    obtain ⟨superseded, hword, hcount⟩ := h.watermarksSuperseded
    rw [h.watermarksHeld, hword, UInt64.toNat_ofNat_of_lt' hlt,
      UInt64.toNat_ofNat_of_lt' (Nat.lt_of_le_of_lt (by omega) hlt), hcount]

end Holdings

namespace World

open Dealing History

variable {α β : Type}

/-- At every point of every run, failures included, the counters are the numbers of successful
collaborator calls and of completed closes by trigger, as words; they add up with the slot, and the
numbers in them do too for as long as no counter has wrapped. -/
theorem tally_accounts (id : String) (checked : Checked) (timer : Timer)
    (moves : List (Move α β)) :
    let w : World α β := (created id checked timer).run moves
    let t := (created id checked timer : World α β).trace moves
    let n := w.coordinator.tally
    n.itemsProcessed = .ofNat (successes (· matches .process _) t) ∧
      n.bundlesStarted = .ofNat (successes (· matches .startBundle) t) ∧
      n.watermarksForwarded = .ofNat (successes (· matches .forward _) t) ∧
      (∀ trigger, n.closes.get trigger = .ofNat ((dealings t).count (closed trigger))) ∧
      w.holdings.Balanced (dealings t) ∧ w.holdings.BalancedNumbers (dealings t) := by
  intro w t n
  have hreaches : Reaches (created id checked timer) w t :=
    reaches_run (orderly_created id checked timer) moves
  have hdeals := hreaches.deals
  refine ⟨?_, ?_, ?_, hdeals.closes, hdeals.balanced, hdeals.balancedNumbers⟩
  · rw [← attests_processed.countP_dealings t]
    exact hdeals.itemsProcessed
  · rw [← attests_started.countP_dealings t]
    exact hdeals.bundlesStarted
  · rw [← attests_forwards.countP_dealings t]
    exact hdeals.watermarksForwarded

end World

end Bundling
