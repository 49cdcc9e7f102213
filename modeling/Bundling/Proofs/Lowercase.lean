import Bundling.Text.Lowercase
import Mathlib

/-!
Lower case is lower case already. No run of capital letters holds what a run makes of them, so a
character that has been put in lower case stays as it is, and so does text of such characters
whatever stands around it.
-/

set_option autoImplicit false
set_option relaxedAutoImplicit false

namespace Bundling.Text

/-! ### The table of capital letters -/

namespace CaseRun

/-- The first lower-case letter of a run. -/
def low (r : CaseRun) : Nat := (r.first + r.offset).toNat

/-- The last lower-case letter of a run. -/
def high (r : CaseRun) : Nat := (r.last + r.offset).toNat

/-- The lower-case letters of a run are characters, and neither ASCII capitals nor the capital I
with a dot. -/
def IsClear (r : CaseRun) : Prop :=
  0 ≤ r.first + r.offset ∧ 0x61 ≤ r.low ∧ (r.high ≤ 0x7A ∨ 0x80 ≤ r.low) ∧
    (r.high < 0x130 ∨ 0x130 < r.low) ∧ (r.high < 0xD800 ∨ 0xDFFF < r.low ∧ r.high < 0x110000)

instance (r : CaseRun) : Decidable r.IsClear := inferInstanceAs (Decidable (_ ∧ _))

/-- Whether a lower-case letter of `r` may be a capital of `q`: it may if it lies in the range of
`q`, unless every other letter there is a capital and those of `r` are the others, or `r` has only
one letter and that is no capital. -/
def meets (r q : CaseRun) : Bool :=
  q.first.ble r.high && (r.low.ble q.last &&
    !(r.step == 2 && q.step == 2 && (r.low + q.first) % 2 == 1 ||
      r.first == r.last && !q.holds r.low))

theorem holds_iff {r : CaseRun} {n : Nat} :
    r.holds n = true ↔ r.first ≤ n ∧ n ≤ r.last ∧ (n - r.first) % r.step = 0 := by
  simp [holds, and_assoc]

variable {r q : CaseRun} {n : Nat}

theorem low_le (hn : r.holds n = true) : r.low ≤ (n + r.offset).toNat := by
  have hfirst := (holds_iff.mp hn).1
  unfold low
  omega

theorem le_high (hn : r.holds n = true) : (n + r.offset).toNat ≤ r.high := by
  have hlast := (holds_iff.mp hn).2.1
  unfold high
  omega

theorem holds_eq_false (hclear : r.IsClear) (hmeets : r.meets q = false) (hn : r.holds n = true) :
    q.holds (n + r.offset).toNat = false := by
  rw [Bool.eq_false_iff]
  intro hq
  have hlow := low_le hn
  have hhigh := le_high hn
  obtain ⟨hfirst, hlast, hstep⟩ := holds_iff.mp hn
  obtain ⟨hqfirst, hqlast, hqstep⟩ := holds_iff.mp hq
  have hcases : (r.step = 2 ∧ q.step = 2 ∧ (r.low + q.first) % 2 = 1) ∨
      (r.first = r.last ∧ q.holds r.low = false) := by
    have hhighq : q.first ≤ r.high := by omega
    have hlowq : r.low ≤ q.last := by omega
    simp only [meets, Nat.ble_eq.mpr hhighq, Nat.ble_eq.mpr hlowq, Bool.true_and,
      Bool.not_eq_false', Bool.or_eq_true, Bool.and_eq_true, beq_iff_eq, Bool.not_eq_true'] at hmeets
    exact hmeets.imp_left fun h ↦ ⟨h.1.1, h.1.2, h.2⟩
  rcases hcases with ⟨hr, hs, hparity⟩ | ⟨hsame, hnot⟩
  · have hpos := hclear.1
    rw [hr] at hstep
    rw [hs] at hqstep
    unfold low at hparity
    omega
  · have heq : n = r.first := by omega
    rw [heq] at hq
    change q.holds r.low = true at hq
    rw [hnot] at hq
    cases hq

end CaseRun

theorem isClear_of_mem : ∀ r ∈ caseRuns, r.IsClear := by decide +kernel

theorem meets_eq_false : (caseRuns.any fun r ↦ caseRuns.any r.meets) = false := by decide +kernel

/-! ### Characters -/

/-- A character that putting in lower case leaves as it is. -/
structure IsLower (c : Char) : Prop where
  fixed : lowerChar c = c
  ne_dotted : c ≠ 'İ'

theorem IsLower.ne_sigma {c : Char} (h : IsLower c) : c ≠ 'Σ' := by
  rintro rfl
  exact absurd h.fixed (by decide +kernel)

theorem isUpper_iff {c : Char} : c.isUpper = true ↔ 0x41 ≤ c.toNat ∧ c.toNat ≤ 0x5A := by
  simp only [Char.isUpper, ge_iff_le, UInt32.le_iff_toNat_le, decide_eq_true_eq]
  rfl

theorem toNat_toLower_lt {c : Char} (hascii : c.toNat < 0x80) : c.toLower.toNat < 0x80 := by
  by_cases hupper : c.isUpper = true
  · have hlast := (isUpper_iff.mp hupper).2
    rw [Char.toLower_eq_of_isUpper hupper, Char.toNat_ofNat]
    split <;> omega
  · rwa [Char.toLower_eq_of_not_isUpper hupper]

theorem lt_of_toLower_lt {c : Char} (h : c.toLower.toNat < 0x80) : c.toNat < 0x80 := by
  by_cases hupper : c.isUpper = true
  · have hlast := (isUpper_iff.mp hupper).2
    omega
  · rwa [Char.toLower_eq_of_not_isUpper hupper] at h

theorem isLower_of_ascii {c : Char} (hascii : c.toNat < 0x80) (hlower : c.toLower = c) :
    IsLower c := by
  refine ⟨by rw [lowerChar, if_pos hascii, hlower], ?_⟩
  rintro rfl
  exact absurd hascii (by decide)

theorem isLower_lowerChar {c : Char} (hc : c ≠ 'İ') : IsLower (lowerChar c) := by
  by_cases hascii : c.toNat < 0x80
  · rw [lowerChar, if_pos hascii]
    exact isLower_of_ascii (toNat_toLower_lt hascii) (Char.toLower_toLower_eq_toLower c)
  · cases hfind : caseRuns.find? (·.holds c.toNat) with
    | none =>
      have hfixed : lowerChar c = c := by rw [lowerChar, if_neg hascii, hfind]
      exact hfixed.symm ▸ ⟨hfixed, hc⟩
    | some r =>
      have hholds : r.holds c.toNat = true :=
        List.find?_some (p := fun r : CaseRun ↦ r.holds c.toNat) hfind
      have hmem := List.mem_of_find?_eq_some hfind
      have hclear := isClear_of_mem r hmem
      have hlow := CaseRun.low_le hholds
      have hhigh := CaseRun.le_high hholds
      have hnone : caseRuns.find? (fun q ↦ q.holds (c.toNat + r.offset).toNat) = none := by
        refine List.find?_eq_none.mpr fun q hq ↦ ?_
        have hmeets := List.any_eq_false.mp (Bool.eq_false_iff.mpr
          (List.any_eq_false.mp meets_eq_false r hmem)) q hq
        rw [CaseRun.holds_eq_false hclear (Bool.eq_false_iff.mpr hmeets) hholds]
        exact Bool.false_ne_true
      rw [lowerChar, if_neg hascii, hfind]
      dsimp only
      generalize (c.toNat + r.offset).toNat = m at hlow hhigh hnone
      obtain ⟨hpos, hfirst, hsplit, hdotted, hvalid⟩ := hclear
      have htoNat : (Char.ofNat m).toNat = m := by
        rw [Char.toNat_ofNat, if_pos (by unfold Nat.isValidChar; omega)]
      by_cases hmascii : m < 0x80
      · refine isLower_of_ascii (htoNat.symm ▸ hmascii) (Char.toLower_eq_of_not_isUpper ?_)
        rw [isUpper_iff, htoNat]
        omega
      · refine ⟨?_, ?_⟩
        · rw [lowerChar, if_neg (htoNat.symm ▸ hmascii), htoNat, hnone]
        · rintro heq
          have hnat : m = 0x130 := by
            rw [← htoNat, heq]
            rfl
          omega

/-! ### Text -/

theorem isLower_of_mem_lowerFrom {before cs : List Char} {c : Char} (h : c ∈ lowerFrom before cs) :
    IsLower c := by
  induction cs generalizing before with
  | nil => cases h
  | cons d cs ih =>
    rcases List.mem_append.mp h with h | h
    · split at h
      case isTrue =>
        rcases List.mem_cons.mp h with rfl | h
        · exact ⟨by decide, by decide⟩
        · rw [List.mem_singleton.mp h]
          exact ⟨by decide +kernel, by decide⟩
      case isFalse hdotted =>
        split at h
        · rw [List.mem_singleton.mp h]
          exact ⟨by decide +kernel, by decide⟩
        · rw [List.mem_singleton.mp h]
          exact isLower_lowerChar hdotted
    · exact ih h

theorem lowerFrom_eq_self {cs : List Char} (h : ∀ c ∈ cs, IsLower c) (before : List Char) :
    lowerFrom before cs = cs := by
  induction cs generalizing before with
  | nil => rfl
  | cons c cs ih =>
    have hc := h c List.mem_cons_self
    have hrest := ih (fun d hd ↦ h d (List.mem_cons_of_mem c hd)) (c :: before)
    have hsigma : ¬ ((decide (c = 'Σ') && meetsCased before && !meetsCased cs) = true) := by
      simp [hc.ne_sigma]
    rw [lowerFrom, if_neg hc.ne_dotted, if_neg hsigma, hc.fixed, hrest]
    rfl

theorem lowerFrom_cons_of_ascii {c : Char} (hc : c.toNat < 0x80) (before cs : List Char) :
    lowerFrom before (c :: cs) = c.toLower :: lowerFrom (c :: before) cs := by
  have hdotted : c ≠ 'İ' := by
    rintro rfl
    exact absurd hc (by decide)
  have hsigma : c ≠ 'Σ' := by
    rintro rfl
    exact absurd hc (by decide)
  simp [lowerFrom, hdotted, hsigma, lowerChar, hc]

theorem lowerFrom_of_ascii {cs : List Char} (hcs : ∀ c ∈ cs, c.toNat < 0x80)
    (before : List Char) : lowerFrom before cs = cs.map Char.toLower := by
  induction cs generalizing before with
  | nil => rfl
  | cons c cs ih =>
    rw [lowerFrom_cons_of_ascii (hcs c List.mem_cons_self),
      ih fun d hd ↦ hcs d (List.mem_cons_of_mem c hd)]
    rfl

/-- Text keeps its lower case from any place on. -/
theorem lower_ofList_of_suffix {s : String} {cs : List Char} (h : cs <:+ (lower s).toList) :
    lower (String.ofList cs) = String.ofList cs := by
  have hlower : ∀ c ∈ cs, IsLower c := by
    intro c hc
    have hmem : c ∈ (lower s).toList := h.mem hc
    rw [lower, String.toList_ofList] at hmem
    exact isLower_of_mem_lowerFrom hmem
  rw [lower, String.toList_ofList, lowerFrom_eq_self hlower]

end Bundling.Text
