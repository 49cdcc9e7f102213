import Bundling.Proofs.Accounts
import Bundling.Proofs.AfterRelease
import Bundling.Proofs.Leftovers

/-!
How many items the unit takes into one bundle. `History.load` counts them by the history alone. The
counter in the slot may run ahead of it by what failed closes have left over, but never falls
behind, so the check of the counter against the limit, made after every item, bounds the load of
every bundle. The counter is a word, and starts again at zero with the first item of a bundle when
what is left over is one item short of a multiple of `2 ^ 64`; such a bundle may have one item more.
It takes `2 ^ 64 - 1` items to get there.
-/

set_option autoImplicit false
set_option relaxedAutoImplicit false

namespace Bundling

namespace History

variable {α β : Type}

/-- How many items the unit has taken. -/
def taken (h : History α β) : Nat := successes (· matches .process _) h

/-- How many bundles the unit has started. -/
def bundles (h : History α β) : Nat := successes (· matches .startBundle) h

/-- The load of the unit after one more event. -/
def loadStep (n : Nat) : Event α β → Nat
  | .answered _ .startBundle (.ok _) => 0
  | .answered _ (.process _) (.ok _) => n + 1
  | _ => n

/-- How many items the unit has taken since it last started a bundle. -/
def load (h : History α β) : Nat := h.foldl loadStep 0

theorem load_snoc (h : History α β) (e : Event α β) : load (h ++ [e]) = loadStep (load h) e := by
  unfold load
  rw [List.foldl_append]
  rfl

theorem bundles_append (h new : History α β) : bundles (h ++ new) = bundles h + bundles new :=
  List.countP_append

end History

open History

/-- With one more item than failed closes have left over, the counter is at zero again. -/
def Intake.Wraps (n : Intake) : Prop := 2 ^ 64 ∣ n.left + 1

section Wraps

variable {α β : Type} {h : History α β} {limit : UInt64}

/-- A bundle in progress has room for another item, whatever failed closes have left over. -/
theorem Fill.taken_le {slot : Slot} {closing : Bool} (hf : Fill limit h slot closing)
    (hbundle : (Standing.after h).inBundle = true) (hlimit : 0 < limit.toNat) :
    (Intake.after h).taken ≤ limit.toNat ∧
      (¬ (Intake.after h).Wraps → (Intake.after h).taken < limit.toNat) := by
  by_cases htaken : (Intake.after h).taken = 0
  · rw [htaken]
    exact ⟨Nat.zero_le _, fun _ ↦ hlimit⟩
  · obtain ⟨hclimbs, hroom⟩ := hf.climbs hbundle htaken
    rw [UInt64.le_iff_toNat_le] at hroom
    unfold Intake.Climbs at hclimbs
    unfold Intake.Wraps
    omega

end Wraps

namespace History

variable {α β : Type} {before during h : History α β} {e : Event α β} {i : Nat}

/-- The unit has started a bundle after `before`, and no other since. -/
def Began (before during h : History α β) : Prop :=
  (∃ i results, h = before ++ .answered i .startBundle (.ok results) :: during) ∧
    bundles during = 0

theorem Began.of_snoc (hbegan : Began before during (h ++ [e])) (he : bundles [e] = 0) :
    ∃ during', Began before during' h := by
  obtain ⟨⟨i, results, heq⟩, hduring⟩ := hbegan
  rcases List.eq_nil_or_concat during with rfl | ⟨during', last, rfl⟩
  · obtain ⟨-, hstart⟩ := List.append_inj' heq rfl
    rw [hstart] at he
    cases he
  · rw [List.concat_eq_append, bundles_append] at hduring
    rw [List.concat_eq_append, ← List.cons_append, ← List.append_assoc] at heq
    exact ⟨during', ⟨i, results, (List.append_inj' heq rfl).1⟩, by omega⟩

theorem Began.of_started {results : List β}
    (hbegan : Began before during (h ++ [.answered i .startBundle (.ok results)])) :
    before = h := by
  obtain ⟨⟨j, results', heq⟩, hduring⟩ := hbegan
  rcases List.eq_nil_or_concat during with rfl | ⟨during', last, rfl⟩
  · exact (List.append_inj' heq rfl).1.symm
  · rw [List.concat_eq_append, ← List.cons_append, ← List.append_assoc] at heq
    obtain ⟨-, hlast⟩ := List.append_inj' heq rfl
    rw [List.concat_eq_append, bundles_append, ← hlast] at hduring
    exact absurd hduring (Nat.succ_ne_zero _)

/-- The load is one that a bundle started after `before` may have. -/
def Roomy (limit : Nat) (before h : History α β) : Prop :=
  load h ≤ limit + 1 ∧ (¬ (Intake.after before).Wraps → load h ≤ limit)

end History

/-- The load is what the intake says while a bundle is in progress or being closed; as long as it is
in progress nothing more has been left over since it was started; and the load has been within
bounds all the time. -/
structure Laden {α β : Type} (limit : Nat) (h : History α β) : Prop where
  bundle : (Standing.after h).inBundle = true ∨ (Intake.after h).taken ≠ 0 →
    load h = (Intake.after h).taken
  left : (Standing.after h).inBundle = true →
    ∀ before during, Began before during h → (Intake.after before).left = (Intake.after h).left
  within : ∀ sofar rest, h = sofar ++ rest →
    ∀ before during, Began before during sofar → Roomy limit before sofar

namespace Laden

variable {α β : Type} {limit : Nat} {h : History α β} {e : Event α β} {i : Nat}

theorem within_snoc (hl : Laden limit h)
    (he : ∀ before during, Began before during (h ++ [e]) → Roomy limit before (h ++ [e]))
    (sofar rest : History α β) (heq : h ++ [e] = sofar ++ rest) :
    ∀ before during, Began before during sofar → Roomy limit before sofar := by
  rcases List.eq_nil_or_concat rest with rfl | ⟨rest', last, rfl⟩
  · rw [List.append_nil] at heq
    rw [← heq]
    exact he
  · rw [List.concat_eq_append, ← List.append_assoc] at heq
    exact hl.within sofar rest' (List.append_inj' heq rfl).1

/-- An event that the load does not depend on, and that goes on with the bundle in progress, if
any. -/
theorem snoc (hl : Laden limit h) (hload : loadStep (load h) e = load h) (he : bundles [e] = 0)
    (htaken : ((Intake.after h).step (Standing.after h) e).taken = (Intake.after h).taken ∨
      ((Intake.after h).step (Standing.after h) e).taken = 0)
    (hbundle : ((Standing.after h).step e).inBundle = true → (Standing.after h).inBundle = true ∧
      ((Intake.after h).step (Standing.after h) e).taken = (Intake.after h).taken ∧
      ((Intake.after h).step (Standing.after h) e).left = (Intake.after h).left) :
    Laden limit (h ++ [e]) where
  bundle := by
    intro hthen
    rw [Standing.after_snoc, Intake.after_snoc] at hthen
    rw [load_snoc, hload, Intake.after_snoc]
    rcases hthen with hin | hne
    · rw [(hbundle hin).2.1]
      exact hl.bundle (.inl (hbundle hin).1)
    · have hsame := htaken.resolve_right hne
      rw [hsame] at hne ⊢
      exact hl.bundle (.inr hne)
  left := by
    intro hin before during hbegan
    rw [Standing.after_snoc] at hin
    obtain ⟨during', hbegan'⟩ := hbegan.of_snoc he
    rw [Intake.after_snoc, (hbundle hin).2.2]
    exact hl.left (hbundle hin).1 before during' hbegan'
  within := by
    refine hl.within_snoc fun before during hbegan ↦ ?_
    obtain ⟨during', hbegan'⟩ := hbegan.of_snoc he
    unfold Roomy
    rw [load_snoc, hload]
    exact hl.within h [] (List.append_nil h).symm before during' hbegan'

/-- An event that the intake does not depend on either. -/
theorem note (hl : Laden limit h) (hload : loadStep (load h) e = load h) (he : bundles [e] = 0)
    (htaken : ((Intake.after h).step (Standing.after h) e).taken = (Intake.after h).taken)
    (hleft : ((Intake.after h).step (Standing.after h) e).left = (Intake.after h).left)
    (hbundle : ((Standing.after h).step e).inBundle = true →
      (Standing.after h).inBundle = true) : Laden limit (h ++ [e]) :=
  hl.snoc hload he (.inl htaken) fun hin ↦ ⟨hbundle hin, htaken, hleft⟩

theorem outer (hl : Laden limit h) (he : e.IsOuter) : Laden limit (h ++ [e]) := by
  cases e with
  | issued => exact hl.note rfl rfl rfl rfl id
  | replied i q r =>
    have hsame : ((Intake.after h).step (Standing.after h) (.replied i q r)).taken =
          (Intake.after h).taken ∧
        ((Intake.after h).step (Standing.after h) (.replied i q r)).left =
          (Intake.after h).left := by
      cases q with
      | watermark w =>
        cases r with
        | done =>
          dsimp only [Intake.step]
          split <;> exact ⟨rfl, rfl⟩
        | _ => exact ⟨rfl, rfl⟩
      | _ => exact ⟨rfl, rfl⟩
    exact hl.note rfl rfl hsame.1 hsame.2 id
  | asked | answered => cases he

theorem asked (hl : Laden limit h) (op : Operation α β) :
    Laden limit (h ++ [Event.asked i op]) := by
  refine hl.note rfl rfl rfl rfl fun hin ↦ ?_
  cases op with
  | finishBundle => cases hin
  | _ => exact hin

theorem reached (hl : Laden limit h) (q : Request α) (s : Stage α β) :
    Laden limit (h ++ Event.reached i q s) := by
  unfold Event.reached
  split
  · exact hl.asked _
  · exact hl.outer trivial
  · rw [List.append_nil]
    exact hl

theorem started (hl : Laden limit h) (results : List β) :
    Laden limit (h ++ [Event.answered i .startBundle (.ok results)]) where
  bundle := fun _ ↦ by
    rw [load_snoc, Intake.after_snoc]
    rfl
  left := by
    intro _ before during hbegan
    rw [hbegan.of_started, Intake.after_snoc]
    rfl
  within := by
    refine hl.within_snoc fun before during _ ↦ ?_
    unfold Roomy
    rw [load_snoc]
    exact ⟨Nat.zero_le _, fun _ ↦ Nat.zero_le limit⟩

theorem takes (hl : Laden limit h) (hbundle : (Standing.after h).inBundle = true)
    (hroom : (Intake.after h).taken ≤ limit ∧
      (¬ (Intake.after h).Wraps → (Intake.after h).taken < limit)) (x : α) (results : List β) :
    Laden limit (h ++ [Event.answered i (.process x) (.ok results)]) := by
  have hload : load (h ++ [Event.answered i (.process x) (.ok results)]) =
      (Intake.after h).taken + 1 := by
    rw [load_snoc, ← hl.bundle (.inl hbundle)]
    rfl
  refine ⟨fun _ ↦ ?_, fun _ before during hbegan ↦ ?_, hl.within_snoc fun before during hbegan ↦ ?_⟩
  · rw [hload, Intake.after_snoc]
    rfl
  all_goals
    obtain ⟨during', hbegan'⟩ := hbegan.of_snoc rfl
    have hleft := hl.left hbundle before during' hbegan'
  · rw [Intake.after_snoc]
    exact hleft
  · unfold Roomy Intake.Wraps
    rw [hload, hleft]
    exact ⟨Nat.succ_le_succ hroom.1, hroom.2⟩

/-- An answer that comes while no bundle is in progress, and starts none. -/
theorem answered (hl : Laden limit h) (hout : (Standing.after h).inBundle = false)
    {op : Operation α β} (hstart : op ≠ .startBundle) (hprocess : ∀ x, op ≠ .process x)
    (a : Except Failure (List β)) : Laden limit (h ++ [Event.answered i op a]) := by
  refine hl.snoc ?_ ?_ ?_ fun hin ↦ ?_
  · cases op <;> cases a <;> first | rfl | exact absurd rfl hstart | exact absurd rfl (hprocess _)
  · cases op <;> cases a <;> first | rfl | exact absurd rfl hstart
  · cases op <;> cases a <;> first | exact .inl rfl | exact .inr rfl |
      exact absurd rfl (hprocess _) | (dsimp only [Intake.step]; split <;> simp)
  · have hstill : ((Standing.after h).answer op a).inBundle = (Standing.after h).inBundle := by
      cases op <;> cases a <;> first | rfl | exact absurd rfl hstart
    exact absurd (hstill.symm.trans hin) (by simp [hout])

/-- A failure that starts nothing. -/
theorem failed (hl : Laden limit h) {op : Operation α β}
    (hop : op = .startBundle ∨ ∃ x, op = .process x) (f : Failure) :
    Laden limit (h ++ [Event.answered i op (.error f)]) := by
  rcases hop with rfl | ⟨x, rfl⟩ <;> exact hl.note rfl rfl rfl rfl id

/-- The answer that a call goes on with. -/
theorem leaves {word : UInt64} {c : Coordinator} {s : Stage α β} (hl : Laden word.toNat h)
    (hconducts : c.Conducts i s h) (hfill : Fill word h c.slot s.closes)
    (hlimit : 0 < word.toNat) (a : Except Failure (List β)) :
    Laden word.toNat (h ++ Event.left i s a) := by
  obtain ⟨hconduct, hfits⟩ := hconducts
  cases s with
  | queued | queuedToRelease | ended =>
    rw [Event.left_eq_nil rfl, List.append_nil]
    exact hl
  | starting x =>
    cases a with
    | ok results => exact hl.started []
    | error f => exact hl.failed (.inl rfl) f
  | processing x =>
    cases a with
    | ok results =>
      have hbundle : (Standing.after h).inBundle = true :=
        (hconduct.bundle hfits.1).mpr ⟨hfits.2.2, by simp [Stage.operation?]⟩
      exact hl.takes hbundle (hfill.taken_le hbundle hlimit) x []
    | error f => exact hl.failed (.inr ⟨x, rfl⟩) f
  | opening | closingUnit =>
    refine hl.note ?_ ?_ ?_ ?_ fun hin ↦ ?_
    all_goals cases a <;> first | rfl | exact hin
  | finishing | draining | emitting | releasing | forwarding =>
    exact hl.answered (hconduct.not_inBundle hfits.1 hfits.2.2) (by simp) (by simp) _

end Laden

namespace World

variable {α β : Type}

end World

end Bundling
