import Bundling.Text.Blank
import Bundling.Text.Decimal
import Mathlib.Data.List.DropRight
import Mathlib.Data.Nat.Digits.Defs

/-!
What the readers of numerals accept. Text loses exactly the blanks at its two ends. A numeral is one
or more digits behind at most one sign, and it denotes the sum of its digits in their places;
`toInt64?` gives the integer that a numeral denotes if 64 bits hold it, and nothing for any other
text.
-/

set_option autoImplicit false
set_option relaxedAutoImplicit false

namespace Bundling

/-! ### Blanks at the ends -/

namespace Text

variable {cs core : List Char}

/-- `core` is `cs` without the blanks at its ends. -/
structure Trims (cs core : List Char) : Prop where
  around : ∃ lead trail, cs = lead ++ core ++ trail ∧ (∀ c ∈ lead, isBlank c = true) ∧
    ∀ c ∈ trail, isBlank c = true
  first : ∀ c ∈ core.head?, isBlank c = false
  last : ∀ c ∈ core.getLast?, isBlank c = false

theorem dropWhile_of_head {p : Char → Bool} (h : ∀ c ∈ cs.head?, p c = false) :
    cs.dropWhile p = cs := by
  cases cs with
  | nil => rfl
  | cons c cs => exact List.dropWhile_cons_of_neg (by simp [h c rfl])

theorem trims_trimChars (cs : List Char) : Trims cs (trimChars cs) := by
  have hlead := (List.takeWhile_append_dropWhile (p := isBlank) (l := cs)).symm
  have htrail :=
    (List.rdropWhile_append_rtakeWhile (p := isBlank) (l := cs.dropWhile isBlank)).symm
  refine ⟨⟨cs.takeWhile isBlank, (cs.dropWhile isBlank).rtakeWhile isBlank, ?_,
    fun c hc ↦ List.mem_takeWhile_imp hc, fun c hc ↦ List.mem_rtakeWhile_imp hc⟩, ?_, ?_⟩
  · rw [List.append_assoc]
    exact hlead.trans (congrArg _ htrail)
  · -- what is left starts with what the text starts with behind its first blanks
    intro c hc
    change ((cs.dropWhile isBlank).rdropWhile isBlank).head? = some c at hc
    have hhead : (cs.dropWhile isBlank).head? = some c := by
      rw [htrail, List.head?_append, hc, Option.some_or]
    have hnot := List.head?_dropWhile_not isBlank cs
    rw [hhead] at hnot
    exact hnot
  · intro c hc
    change c ∈ (((cs.dropWhile isBlank).reverse.dropWhile isBlank).reverse).getLast? at hc
    rw [List.getLast?_reverse] at hc
    have hnot := List.head?_dropWhile_not isBlank (cs.dropWhile isBlank).reverse
    rw [Option.mem_def.mp hc] at hnot
    exact hnot

theorem trimChars_eq_iff : trimChars cs = core ↔ Trims cs core := by
  constructor
  · rintro rfl
    exact trims_trimChars cs
  · rintro ⟨⟨lead, trail, rfl, hlead, htrail⟩, hfirst, hlast⟩
    have hreverse : (core ++ trail).reverse.dropWhile isBlank = core.reverse := by
      rw [List.reverse_append, List.dropWhile_append_of_pos (by simpa using htrail)]
      exact dropWhile_of_head (by simpa using hlast)
    unfold trimChars
    rw [List.append_assoc, List.dropWhile_append_of_pos hlead]
    cases core with
    | nil =>
      have hempty : trail.dropWhile isBlank = [] := List.dropWhile_eq_nil_iff.mpr htrail
      rw [List.nil_append, hempty]
      rfl
    | cons c core =>
      have hkept : (c :: core ++ trail).dropWhile isBlank = c :: core ++ trail :=
        dropWhile_of_head (by simpa using hfirst)
      rw [hkept, hreverse, List.reverse_reverse]

end Text

/-! ### Numerals -/

namespace Decimal

variable {cs : List Char} {n : Int} {m : Nat} {w : Int64}

/-- The number that a digit stands for. -/
def digitValue (c : Char) : Nat := c.toNat - '0'.toNat

/-- One or more digits, and the number that they stand for in their places. -/
structure Magnitude (cs : List Char) (m : Nat) : Prop where
  nonempty : cs ≠ []
  digits : ∀ c ∈ cs, c.isDigit = true
  value : m = Nat.ofDigits 10 (cs.reverse.map digitValue)

/-- A numeral and the integer that it denotes. -/
inductive Denotes : List Char → Int → Prop where
  | unsigned {cs : List Char} {m : Nat} (h : Magnitude cs m) : Denotes cs m
  | plus {cs : List Char} {m : Nat} (h : Magnitude cs m) : Denotes ('+' :: cs) m
  | minus {cs : List Char} {m : Nat} (h : Magnitude cs m) : Denotes ('-' :: cs) (-m)

/-- Reading digits from the left gives their sum in their places. -/
theorem ofDigitChars_eq (cs : List Char) :
    Nat.ofDigitChars 10 cs 0 = Nat.ofDigits 10 (cs.reverse.map digitValue) := by
  induction cs using List.reverseRecOn with
  | nil => rfl
  | append_singleton cs c ih =>
    rw [Nat.ofDigitChars_append, ih, List.reverse_append, List.reverse_singleton,
      List.singleton_append, List.map_cons, Nat.ofDigits_cons, Nat.ofDigitChars_cons,
      Nat.ofDigitChars_nil, Nat.add_comm]
    rfl

theorem toNat?_eq_some_iff : toNat? cs = some m ↔ Magnitude cs m := by
  unfold toNat?
  constructor
  · intro h
    obtain ⟨⟨hne, hdigits⟩, hvalue⟩ := Option.ite_none_right_eq_some.mp h
    refine ⟨hne, List.all_eq_true.mp hdigits, ?_⟩
    rw [← ofDigitChars_eq, Option.some.inj hvalue]
  · rintro ⟨hne, hdigits, hvalue⟩
    rw [if_pos ⟨hne, List.all_eq_true.mpr hdigits⟩, ofDigitChars_eq, hvalue]

theorem toInt?_eq_some_iff : toInt? cs = some n ↔ Denotes cs n := by
  constructor
  · intro h
    unfold toInt? at h
    split at h
    all_goals obtain ⟨m, hm, rfl⟩ := Option.map_eq_some_iff.mp h
    · exact .minus (toNat?_eq_some_iff.mp hm)
    · exact .plus (toNat?_eq_some_iff.mp hm)
    · exact .unsigned (toNat?_eq_some_iff.mp hm)
  · intro h
    cases h with
    | unsigned h =>
      rw [toInt?_of_all_isDigit (List.all_eq_true.mpr h.digits), toNat?_eq_some_iff.mpr h]
      rfl
    | plus h =>
      rw [toInt?, toNat?_eq_some_iff.mpr h]
      rfl
    | minus h =>
      rw [toInt?, toNat?_eq_some_iff.mpr h]
      rfl

theorem fit?_eq_some_iff : fit? n = some w ↔ w.toInt = n := by
  constructor
  · intro h
    obtain ⟨⟨hlow, hhigh⟩, hword⟩ := Option.ite_none_right_eq_some.mp h
    rw [← Option.some.inj hword]
    exact Int64.toInt_ofInt_of_le hlow (Int.lt_of_le_of_lt hhigh (by decide))
  · rintro rfl
    exact fit?_toInt w

theorem toInt64?_eq_some_iff : toInt64? cs = some w ↔ Denotes cs w.toInt := by
  rw [toInt64?, Option.bind_eq_some_iff, ← toInt?_eq_some_iff]
  constructor
  · rintro ⟨n, hn, hw⟩
    rw [fit?_eq_some_iff.mp hw, hn]
  · exact fun h ↦ ⟨w.toInt, h, fit?_toInt w⟩

/-- Text is refused if it is no numeral or 64 bits do not hold what it denotes. -/
theorem toInt64?_eq_none_iff :
    toInt64? cs = none ↔ ∀ n, Denotes cs n → n < -2 ^ 63 ∨ 2 ^ 63 ≤ n := by
  constructor
  · intro h n hn
    by_contra hfits
    have hword : (Int64.ofInt n).toInt = n :=
      Int64.toInt_ofInt_of_le (by omega) (by omega)
    rw [← hword] at hn
    rw [toInt64?_eq_some_iff.mpr hn] at h
    cases h
  · intro h
    by_contra hne
    obtain ⟨w, hw⟩ := Option.ne_none_iff_exists'.mp hne
    have hlow := Int64.le_toInt w
    have hhigh := Int64.toInt_lt w
    have hout := h _ (toInt64?_eq_some_iff.mp hw)
    omega

end Decimal

end Bundling
