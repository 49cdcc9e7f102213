import Bundling.Proofs.EffectiveLimits
import Bundling.Proofs.Numerals
import Bundling.Threshold.Parameters

/-!
What job parameters come to. Each of the two parameters is treated by one rule: a positive integer
that 64 bits hold is the limit, anything else means the default. What cannot be read is reported
with its text as given, what is not positive with its value, and all that cannot be read before all
that is not positive.
-/

set_option autoImplicit false
set_option relaxedAutoImplicit false

namespace Bundling.Parameters

/-! ### One parameter -/

/-- A text is read as an integer: it is a numeral, blanks around it aside, and 64 bits hold what the
numeral denotes. -/
structure Reads (raw : String) (n : Int) : Prop where
  numeral : ∃ core, Text.Trims raw.toList core ∧ Decimal.Denotes core n
  low : -2 ^ 63 ≤ n
  high : n ≤ 2 ^ 63 - 1

/-- How a parameter comes out: the limit that it gives, the text that is reported as unreadable, and
the text that is reported as not positive. -/
inductive Settles : Option String → Nat → Option String → Option String → Prop where
  | absent : Settles none 1000 none none
  | accepted {raw : String} {n : Nat} (hreads : Reads raw n) (hpos : 1 ≤ n) :
      Settles (some raw) n none none
  | unreadable {raw : String} (hreads : ∀ n, ¬ Reads raw n) :
      Settles (some raw) 1000 (some raw) none
  | notPositive {raw : String} {n : Int} (hreads : Reads raw n) (hneg : n ≤ 0) :
      Settles (some raw) 1000 none (some (Decimal.text n))

variable {raw : String} {n : Int} {w : Int64}

theorem value?_eq_some_iff : value? raw = some w ↔ Reads raw w.toInt := by
  unfold value?
  rw [Decimal.toInt64?_eq_some_iff]
  constructor
  · intro h
    have hhigh := Int64.toInt_lt w
    exact ⟨⟨_, Text.trims_trimChars _, h⟩, Int64.le_toInt w, by omega⟩
  · rintro ⟨⟨core, htrims, hdenotes⟩, -, -⟩
    rwa [Text.trimChars_eq_iff.mpr htrims]

theorem Reads.exists_word (h : Reads raw n) : ∃ w : Int64, value? raw = some w ∧ w.toInt = n := by
  have hlow := h.low
  have hhigh := h.high
  have hword : (Int64.ofInt n).toInt = n := Int64.toInt_ofInt_of_le hlow (by omega)
  exact ⟨Int64.ofInt n, value?_eq_some_iff.mpr (hword.symm ▸ h), hword⟩

theorem value?_eq_none_iff : value? raw = none ↔ ∀ n, ¬ Reads raw n := by
  constructor
  · intro h n hreads
    obtain ⟨w, hw, -⟩ := hreads.exists_word
    rw [h] at hw
    cases hw
  · intro h
    by_contra hne
    obtain ⟨w, hw⟩ := Option.ne_none_iff_exists'.mp hne
    exact h _ (value?_eq_some_iff.mp hw)

theorem Reads.unique {m : Int} (hn : Reads raw n) (hm : Reads raw m) : n = m := by
  obtain ⟨w, hw, rfl⟩ := hn.exists_word
  obtain ⟨v, hv, rfl⟩ := hm.exists_word
  rw [Option.some.inj (hw.symm.trans hv)]

/-- The rule leaves no choice. -/
theorem Settles.unique {text : Option String} {limit limit' : Nat}
    {bad bad' low low' : Option String} (h : Settles text limit bad low)
    (h' : Settles text limit' bad' low') : limit = limit' ∧ bad = bad' ∧ low = low' := by
  cases h with
  | absent =>
    cases h'
    exact ⟨rfl, rfl, rfl⟩
  | accepted hreads hpos =>
    cases h' with
    | accepted hreads' => exact ⟨Int.ofNat_inj.mp (hreads.unique hreads'), rfl, rfl⟩
    | unreadable hnot => exact absurd hreads (hnot _)
    | notPositive hreads' hneg =>
      have heq := hreads.unique hreads'
      omega
  | unreadable hnot =>
    cases h' with
    | accepted hreads => exact absurd hreads (hnot _)
    | unreadable => exact ⟨rfl, rfl, rfl⟩
    | notPositive hreads => exact absurd hreads (hnot _)
  | notPositive hreads hneg =>
    cases h' with
    | accepted hreads' hpos =>
      have heq := hreads.unique hreads'
      omega
    | unreadable hnot => exact absurd hreads (hnot _)
    | notPositive hreads' => exact ⟨rfl, rfl, by rw [hreads.unique hreads']⟩

/-- The text that is reported of a limit that is not positive. -/
def lowText (n : Int64) : Option String :=
  if n ≤ 0 then some (Decimal.text n.toInt) else none

theorem settles (text : Option String) :
    Settles text (Limits.positiveOr 1000 (valueOr 1000 text)).toNat (unreadable text)
      (lowText (valueOr 1000 text)) := by
  cases text with
  | none => exact .absent
  | some raw =>
    cases hvalue : value? raw with
    | none =>
      have hunreadable : unreadable (some raw) = some raw := by simp [unreadable, hvalue]
      have hvalueOr : valueOr 1000 (some raw) = 1000 := by simp [valueOr, hvalue]
      rw [hunreadable, hvalueOr]
      exact .unreadable (value?_eq_none_iff.mp hvalue)
    | some w =>
      have hreads := value?_eq_some_iff.mp hvalue
      have hunreadable : unreadable (some raw) = none := by simp [unreadable, hvalue]
      have hvalueOr : valueOr 1000 (some raw) = w := by simp [valueOr, hvalue]
      have hle : w ≤ 0 ↔ w.toInt ≤ 0 := Int64.le_iff_toInt_le
      rw [hunreadable, hvalueOr]
      by_cases hpos : 0 < w.toInt
      · have hlow : lowText w = none := if_neg (by rw [hle]; omega)
        have hlimit : (w.toInt.toNat : Int) = w.toInt := Int.toNat_of_nonneg (by omega)
        rw [hlow, Limits.toNat_positiveOr 1000 hpos]
        exact .accepted (by rwa [hlimit]) (by omega)
      · have hlow : lowText w = some (Decimal.text w.toInt) := if_pos (by rw [hle]; omega)
        rw [hlow, Limits.positiveOr_of_not_pos 1000 hpos]
        exact .notPositive hreads (by omega)

/-! ### Both parameters -/

theorem fallbacks_check (get : String → Option String) :
    (check get).fallbacks =
      ((unreadable (get sizeKey)).map Fallback.size).toList ++
        ((unreadable (get ageKey)).map Fallback.age).toList ++
        ((lowText (valueOr 1000 (get sizeKey))).map Fallback.size).toList ++
        ((lowText (valueOr 1000 (get ageKey))).map Fallback.age).toList := by
  have htoList (fallback : String → Fallback) (w : Int64) :
      (if w ≤ 0 then [fallback (Decimal.text w.toInt)] else []) =
        ((lowText w).map fallback).toList := by
    unfold lowText
    split <;> rfl
  change fallbacks get ++ (limits get).fallbacks = _
  unfold Limits.fallbacks
  rw [htoList Fallback.size, htoList Fallback.age, ← List.append_assoc]
  rfl

/-- Both parameters follow the rule, and nothing else counts: the policy has the limits that it
gives, the fallbacks are what it reports, and all that is positive that has to be. -/
theorem check_follows_rule (get : String → Option String) :
    (∃ (size age : Nat) (badSize badAge lowSize lowAge : Option String),
      Settles (get "bundle.max-size") size badSize lowSize ∧
      Settles (get "bundle.max-time-millis") age badAge lowAge ∧
      (check get).policy.maxItems.toNat = size ∧
      (check get).policy.maxAge = Span.ofMillis (UInt64.ofNat age) ∧
      (check get).policy.maxAge.toMillis = age ∧
      (check get).fallbacks =
        (badSize.map Fallback.size).toList ++ (badAge.map Fallback.age).toList ++
          (lowSize.map Fallback.size).toList ++ (lowAge.map Fallback.age).toList) ∧
    0 < (check get).policy.maxItems.toNat ∧ 0 < (check get).policy.maxAge.toMillis ∧
    0 < (check get).policy.checkPeriod.toMillis ∧
    ∀ get' : String → Option String, get' "bundle.max-size" = get "bundle.max-size" →
      get' "bundle.max-time-millis" = get "bundle.max-time-millis" → check get' = check get := by
  refine ⟨?rule, (limits get).maxItems_pos, (limits get).maxAge_pos, Policy.checkPeriod_pos _,
    ?isolated⟩
  case rule =>
    refine ⟨_, _, _, _, _, _, settles (get sizeKey), settles (get ageKey), rfl, ?_,
      (limits get).toMillis_maxAge, fallbacks_check get⟩
    rw [UInt64.ofNat_toNat]
    rfl
  case isolated =>
    intro get' hsize hage
    unfold check limits fallbacks sizeKey ageKey
    rw [hsize, hage]

/-- A size with a sign, zeros and blanks is accepted; a time that is no numeral and one that is not
positive are reported; another parameter plays no part. -/
theorem check_follows_rule_mixed :
    let get := List.lookup (β := String)
    let params := [("bundle.max-size", "\u3000+007 "), ("bundle.max-time-millis", "soon")]
    let more := ("max_bundle_size", "1") :: params
    get "bundle.max-size" more = get "bundle.max-size" params ∧
      get "bundle.max-time-millis" more = get "bundle.max-time-millis" params ∧
      check (get · params) = ⟨⟨7, Span.ofMillis 1000⟩, [.age "soon"]⟩ ∧
      check (get · more) = check (get · params) :=
  ⟨rfl, rfl, by decide +kernel, (check_follows_rule _).2.2.2.2 _ rfl rfl⟩

end Bundling.Parameters
