import Bundling.Proofs.EffectiveLimits
import Bundling.Proofs.Numerals
import Bundling.Proofs.Precedence
import Bundling.Threshold.Parameters

/-!
What a variable comes to whose text is no integer. Words for yes and no and the texts of doubles are
taken for integers, and only those that come to no positive one fall back to the default with a
report. A positive one is used as it is, and any other text makes loading fail. That is how it goes
with every backend that reads the texts of variables, and takes values for integers, as it should.
-/

set_option autoImplicit false
set_option relaxedAutoImplicit false

namespace Bundling

/-! ### Words are no numerals -/

namespace Binary64

/-- Text that starts with a letter is no numeral of digits. -/
theorem unsigned?_of_letter {c : Char} (hdigit : c.isDigit = false) (hpoint : c ≠ '.')
    (negative : Bool) (cs : List Char) : unsigned? negative (c :: cs) = none := by
  have hspan : spanDigits (c :: cs) = ([], c :: cs) := by
    simp [spanDigits, List.span_eq_takeWhile_dropWhile, hdigit]
  unfold unsigned?
  rw [hspan]
  dsimp only
  split
  · next heq => exact absurd (List.cons.inj heq).1 hpoint
  · rfl

/-- The names of the doubles that are no numbers. -/
def names : List String := ["inf", "infinity", "nan"]

theorem named?_eq_none {cs : List Char} (h : Text.lower (String.ofList cs) ∉ names)
    (negative : Bool) : named? negative cs = none := by
  have hascii : (names.all fun w ↦ w.toList.all fun c ↦ c.toNat < 0x80) = true := by decide +kernel
  have hmap : String.ofList (cs.map Char.toLower) ∉ names := by
    intro hmem
    have hcs : ∀ c ∈ cs, c.toNat < 0x80 := by
      intro c hc
      have hword := List.all_eq_true.mp (List.all_eq_true.mp hascii _ hmem) c.toLower
      rw [String.toList_ofList] at hword
      exact Text.lt_of_toLower_lt (of_decide_eq_true (hword (List.mem_map_of_mem hc)))
    rw [Text.lower, String.toList_ofList, Text.lowerFrom_of_ascii hcs] at h
    exact h hmem
  have hne : ∀ w ∈ names, cs.map Char.toLower ≠ w.toList := by
    rintro w hw heq
    rw [heq, String.ofList_toList] at hmap
    exact hmap hw
  unfold named?
  dsimp only
  rw [if_neg (not_or.mpr ⟨hne "inf" (by decide), hne "infinity" (by decide)⟩),
    if_neg (hne "nan" (by decide))]

end Binary64

namespace Datum

/-- The words for yes. -/
def onWords : List String := ["true", "on", "yes"]

/-- The words for no. -/
def offWords : List String := ["false", "off", "no"]

theorem isAlpha_of_word {c : Char} {cs : List Char} (hc : c.toNat < 0x80)
    (h : Text.lower (String.ofList (c :: cs)) ∈ onWords ++ offWords) : c.isAlpha = true := by
  have hletters : ((onWords ++ offWords).all fun w ↦ w.toList.head?.all Char.isAlpha) = true := by
    decide +kernel
  have hhead := List.all_eq_true.mp hletters _ h
  rw [Text.lower, String.toList_ofList, String.toList_ofList,
    Text.lowerFrom_cons_of_ascii hc] at hhead
  rwa [← Char.isAlpha_toLower_eq_isAlpha]

theorem isAlpha_eq_false_of_isDigit {c : Char} (h : c.isDigit = true) :
    c.toNat < 0x80 ∧ c.isAlpha = false := by
  simp only [Char.isDigit, Char.isAlpha, Char.isUpper, Char.isLower, UInt32.le_iff_toNat_le,
    Bool.and_eq_true, decide_eq_true_eq, Bool.or_eq_false_iff, Bool.and_eq_false_iff,
    decide_eq_false_iff_not, ge_iff_le] at h ⊢
  change 48 ≤ c.toNat ∧ c.toNat ≤ 57 at h
  change c.toNat < 128 ∧ ¬ (65 ≤ c.toNat ∧ c.toNat ≤ 90) ∧ (¬ 97 ≤ c.toNat ∨ ¬ c.toNat ≤ 122)
  omega

/-- None of the words for yes and no is the text of a double. -/
theorem ofText?_of_word {s : String} (h : Text.lower s ∈ onWords ++ offWords) :
    Binary64.ofText? s.toList = none := by
  have hnames : Text.lower s ∉ Binary64.names := by
    have hdisjoint : ∀ w ∈ onWords ++ offWords, w ∉ Binary64.names := by decide
    exact hdisjoint _ h
  obtain ⟨cs, rfl⟩ : ∃ cs, s = String.ofList cs := ⟨s.toList, String.ofList_toList.symm⟩
  rw [String.toList_ofList]
  cases cs with
  | nil => exact absurd h (by decide +kernel)
  | cons c cs =>
    have hletter (d : Char) (hd : d.toNat < 0x80) (hnot : d.isAlpha = false) : c ≠ d := by
      rintro rfl
      rw [isAlpha_of_word hd h] at hnot
      cases hnot
    have hdigit : c.isDigit = false := by
      rw [Bool.eq_false_iff]
      intro hc
      obtain ⟨hascii, hnot⟩ := isAlpha_eq_false_of_isDigit hc
      exact hletter c hascii hnot rfl
    have hunsigned := Binary64.unsigned?_of_letter hdigit (hletter '.' (by decide) (by decide))
      false cs
    unfold Binary64.ofText?
    split
    · next heq => exact absurd (List.cons.inj heq).1 (hletter '-' (by decide) (by decide))
    · next heq => exact absurd (List.cons.inj heq).1 (hletter '+' (by decide) (by decide))
    · rw [Binary64.magnitude?, Binary64.named?_eq_none hnames, hunsigned]
      rfl

end Datum

namespace Backend

open Datum

/-- A text whose kind nobody gave is a flag if it is the word for one, otherwise the integer or else
the double that it is the text of, and itself if it is neither. -/
structure Parses (b : Backend) : Prop where
  flag : ∀ s x, Text.lower s = (if x then "true" else "false") → b.guess s = .flag x
  integer : ∀ s n, Text.lower s ∉ ["true", "false"] → Decimal.toInt64? s.toList = some n →
    b.guess s = .integer n
  real : ∀ s x, Text.lower s ∉ ["true", "false"] → Decimal.toInt64? s.toList = none →
    Binary64.ofText? s.toList = some x → b.guess s = .real x
  text : ∀ s, Text.lower s ∉ ["true", "false"] → Decimal.toInt64? s.toList = none →
    Binary64.ofText? s.toList = none → b.guess s = .text s

/-- What values are taken for where an integer is wanted: a double for the integer next to it, a
flag for one or zero, and a text for the integer that it is the text of, or for one or zero if it is
a word for yes or no. -/
structure Coerces (b : Backend) : Prop where
  integer : ∀ n, b.int64? (.integer n) = some n
  flag : ∀ x, b.int64? (.flag x) = some (if x then 1 else 0)
  real : ∀ x, b.int64? (.real x) = some x.toInt64
  on : ∀ s, Text.lower s ∈ onWords → b.int64? (.text s) = some 1
  off : ∀ s, Text.lower s ∈ offWords → b.int64? (.text s) = some 0
  text : ∀ s, Text.lower s ∉ onWords ++ offWords →
    b.int64? (.text s) = Decimal.toInt64? s.toList

theorem standard_parses : standard.Parses where
  flag := by
    rintro s (_ | _) h
    · change Datum.guess s = .flag false
      unfold Datum.guess
      rw [h]
      rfl
    · change Datum.guess s = .flag true
      unfold Datum.guess
      rw [h]
      rfl
  integer := by
    intro s n hword hn
    rw [List.mem_pair, not_or] at hword
    change Datum.guess s = .integer n
    unfold Datum.guess
    dsimp only
    rw [if_neg hword.1, if_neg hword.2, hn]
  real := by
    intro s x hword hn hx
    rw [List.mem_pair, not_or] at hword
    change Datum.guess s = .real x
    unfold Datum.guess
    dsimp only
    rw [if_neg hword.1, if_neg hword.2, hn, hx]
  text := by
    intro s hword hn hx
    rw [List.mem_pair, not_or] at hword
    change Datum.guess s = .text s
    unfold Datum.guess
    dsimp only
    rw [if_neg hword.1, if_neg hword.2, hn, hx]

end Backend

namespace Datum

theorem ofSwitch?_eq (s : String) : ofSwitch? s =
    if Text.lower s ∈ onWords then some 1
    else if Text.lower s ∈ offWords then some 0 else none := by
  simp [ofSwitch?, onWords, offWords]

theorem notMem_offWords {word : String} (h : word ∈ onWords) : word ∉ offWords := by
  have hdisjoint : ∀ w ∈ onWords, w ∉ offWords := by decide
  exact hdisjoint word h

end Datum

namespace Backend

open Datum

theorem standard_coerces : standard.Coerces where
  integer := fun _ ↦ rfl
  flag := fun _ ↦ rfl
  real := fun _ ↦ rfl
  on := by
    intro s hon
    change (ofSwitch? s).or (Decimal.toInt64? s.toList) = some 1
    rw [ofSwitch?_eq, if_pos hon]
    rfl
  off := by
    intro s hoff
    have hon : Text.lower s ∉ onWords := fun hon ↦ notMem_offWords hon hoff
    change (ofSwitch? s).or (Decimal.toInt64? s.toList) = some 0
    rw [ofSwitch?_eq, if_neg hon, if_pos hoff]
    rfl
  text := by
    intro s hword
    rw [List.mem_append, not_or] at hword
    change (ofSwitch? s).or (Decimal.toInt64? s.toList) = _
    rw [ofSwitch?_eq, if_neg hword.1, if_neg hword.2]
    rfl

end Backend

namespace Datum

/-- The integer that the text of a variable is taken for if it is not the text of one. -/
def coerced? (s : String) : Option Int64 :=
  if Text.lower s ∈ onWords then some 1
  else if Text.lower s ∈ offWords then some 0
  else (Binary64.ofText? s.toList).map Binary64.toInt64

theorem coerced?_eq_none_iff {s : String} : coerced? s = none ↔
    Text.lower s ∉ onWords ∧ Text.lower s ∉ offWords ∧ Binary64.ofText? s.toList = none := by
  unfold coerced?
  by_cases hon : Text.lower s ∈ onWords
  · simp [hon]
  by_cases hoff : Text.lower s ∈ offWords <;> simp [hon, hoff]

theorem coerced?_eq_some_iff {s : String} {n : Int64} : coerced? s = some n ↔
    (Text.lower s ∈ onWords ∧ n = 1) ∨ (Text.lower s ∈ offWords ∧ n = 0) ∨
      ∃ x, Binary64.ofText? s.toList = some x ∧ n = x.toInt64 := by
  unfold coerced?
  by_cases hon : Text.lower s ∈ onWords
  · have hdouble := ofText?_of_word (List.mem_append_left offWords hon)
    simp [hon, notMem_offWords hon, hdouble, eq_comm]
  by_cases hoff : Text.lower s ∈ offWords
  · have hdouble := ofText?_of_word (List.mem_append_right onWords hoff)
    simp [hon, hoff, hdouble, eq_comm]
  simp [hon, hoff, eq_comm]

/-- A text that is taken for a positive integer is a word for yes or the text of a double. -/
theorem coerced?_eq_some_iff_of_pos {s : String} {n : Int64} (hn : ¬ n ≤ 0) :
    coerced? s = some n ↔ Text.lower s ∈ onWords ∧ n = 1 ∨
      ∃ x, Binary64.ofText? s.toList = some x ∧ n = x.toInt64 := by
  have hne : n ≠ 0 := by
    rintro rfl
    exact hn (by decide)
  simp only [coerced?_eq_some_iff, hne, and_false, false_or]

theorem exists_coerced?_iff {s : String} {p : Int64 → Prop} :
    (∃ n, coerced? s = some n ∧ p n) ↔ (Text.lower s ∈ onWords ∧ p 1) ∨
      (Text.lower s ∈ offWords ∧ p 0) ∨
        ∃ x, Binary64.ofText? s.toList = some x ∧ p x.toInt64 := by
  simp only [coerced?_eq_some_iff]
  constructor
  · rintro ⟨n, ⟨hon, rfl⟩ | ⟨hoff, rfl⟩ | ⟨x, hx, rfl⟩, hp⟩
    · exact .inl ⟨hon, hp⟩
    · exact .inr (.inl ⟨hoff, hp⟩)
    · exact .inr (.inr ⟨x, hx, hp⟩)
  · rintro (⟨hon, hp⟩ | ⟨hoff, hp⟩ | ⟨x, hx, hp⟩)
    · exact ⟨1, .inl ⟨hon, rfl⟩, hp⟩
    · exact ⟨0, .inr (.inl ⟨hoff, rfl⟩), hp⟩
    · exact ⟨x.toInt64, .inr (.inr ⟨x, hx, rfl⟩), hp⟩

end Datum

namespace Backend

open Datum

variable {b : Backend} {s : String}

theorem notMem_flags {word : String} (hon : word ∉ onWords) (hoff : word ∉ offWords) :
    word ∉ ["true", "false"] := by
  have hflags : ∀ w ∈ ["true", "false"], w ∈ onWords ++ offWords := by decide
  intro hmem
  rcases List.mem_append.mp (hflags word hmem) with h | h
  · exact hon h
  · exact hoff h

/-- A text that is taken for no integer stays a text. -/
theorem Parses.guess_eq_text (hp : b.Parses) (hs : Decimal.toInt64? s.toList = none)
    (h : coerced? s = none) : b.guess s = .text s := by
  obtain ⟨hon, hoff, hdouble⟩ := coerced?_eq_none_iff.mp h
  exact hp.text s (notMem_flags hon hoff) hs hdouble

theorem int64?_guess (hp : b.Parses) (hc : b.Coerces) (hs : Decimal.toInt64? s.toList = none) :
    b.int64? (b.guess s) = coerced? s := by
  by_cases htrue : Text.lower s = "true"
  · rw [hp.flag s true htrue, hc.flag, coerced?, htrue]
    rfl
  by_cases hfalse : Text.lower s = "false"
  · rw [hp.flag s false hfalse, hc.flag, coerced?, hfalse]
    rfl
  have hflags : Text.lower s ∉ ["true", "false"] := by simp [htrue, hfalse]
  cases hdouble : Binary64.ofText? s.toList with
  | some x =>
    have hword : Text.lower s ∉ onWords ++ offWords := by
      intro hword
      rw [ofText?_of_word hword] at hdouble
      cases hdouble
    rw [List.mem_append, not_or] at hword
    rw [hp.real s x hflags hs hdouble, hc.real, coerced?, if_neg hword.1, if_neg hword.2, hdouble]
    rfl
  | none =>
    rw [hp.text s hflags hs hdouble, coerced?, hdouble]
    by_cases hon : Text.lower s ∈ onWords
    · rw [hc.on s hon, if_pos hon]
    by_cases hoff : Text.lower s ∈ offWords
    · rw [hc.off s hoff, if_neg hon, if_pos hoff]
    · rw [hc.text s (by simp [hon, hoff]), hs, if_neg hon, if_neg hoff]
      rfl

end Backend


/-! ### One variable -/

namespace Limits

open Datum

/-- One of the two limits. -/
inductive Which where
  | size
  | age
  deriving DecidableEq

namespace Which

def name : Which → String
  | size => sizeName
  | age => ageName

/-- The variable for the limit, in capitals. -/
def variableName : Which → String
  | size => "BUNDLER_MAX_BUNDLE_SIZE"
  | age => "BUNDLER_MAX_BUNDLE_TIME_MILLIS"

def other : Which → Which
  | size => age
  | age => size

/-- The job parameter for the limit. -/
def parameter : Which → String
  | size => Parameters.sizeKey
  | age => Parameters.ageKey

/-- The limits with one as given and the default for the other. -/
def limits (n : Int64) : Which → Limits
  | size => { size := n }
  | age => { ageMillis := n }

/-- The limit that a policy works with. -/
def effective (p : Policy) : Which → Nat
  | size => p.maxItems.toNat
  | age => p.maxAge.toMillis

def fallback (configured : String) : Which → Fallback
  | size => .size configured
  | age => .age configured

end Which

/-- The environment sets one limit to a text, and the other not at all. -/
structure Sets (b : Backend) (env : Environment) (which : Which) (s : String) : Prop where
  plain : b.PlainVariables env
  entry : ∃ v ∈ env, Text.lower v.1 = Environment.settingsPrefix ++ which.name ∧ v.2 = s
  alone : ∀ v ∈ env, Text.lower v.1 ≠ Environment.settingsPrefix ++ which.other.name

/-- Loading succeeds, the default is in use for the limit, and the replacement is reported. -/
def FallsBack (b : Backend) (env : Environment) (which : Which) : Prop :=
  ∃ l, b.load none env = .ok l ∧ which.effective l.policy = 1000 ∧
    ∃ configured, which.fallback configured ∈ l.check.fallbacks

variable {b : Backend} {env : Environment} {which : Which} {s : String}

theorem sets_variableName (hb : b.Merges) (which : Which) (s : String) :
    Sets b [(which.variableName, s)] which s := by
  have hname : Text.lower which.variableName = Environment.settingsPrefix ++ which.name := by
    cases which <;> decide +kernel
  have hkey := Environment.settingKey?_eq_some_iff.mpr hname
  have hletters : which.name.toList.all isNameLetter = true := by cases which <;> decide
  refine ⟨⟨?_, ?_⟩, ⟨_, List.mem_singleton_self _, hname, rfl⟩, ?_⟩
  · intro v hv v' hv' _ _
    rw [List.mem_singleton.mp hv, List.mem_singleton.mp hv']
  · intro v hv key hmem
    rw [List.mem_singleton.mp hv, hkey] at hmem
    rw [← Option.some.inj hmem]
    exact hb.isPath_of_letters _ (by cases which <;> decide) (List.all_eq_true.mp hletters)
  · intro v hv
    rw [List.mem_singleton.mp hv, hname]
    cases which <;> decide +kernel

theorem Sets.said?_eq (h : Sets b env which s) : b.said? env which.name = some (b.guess s) := by
  obtain ⟨v, hmem, hname, rfl⟩ := h.entry
  exact h.plain.said?_eq_some_iff.mpr
    ⟨v, hmem, Environment.settingKey?_eq_some_iff.mpr hname, rfl⟩

theorem Sets.said?_other (h : Sets b env which s) : b.said? env which.other.name = none := by
  rw [Backend.said?, Option.map_eq_none_iff, List.find?_eq_none]
  intro v hv
  simpa using h.alone v hv

theorem limits_of_other {settings : Settings} {r : Except Mismatch Int64}
    (hvalue : b.integer settings which.name 1000 = r)
    (hother : b.integer settings which.other.name 1000 = .ok 1000) :
    b.limits settings = r.map fun n ↦ which.limits n := by
  change (b.integer settings sizeName 1000 >>= fun size ↦ b.integer settings ageName 1000 >>=
    fun age ↦ (pure ⟨size, age⟩ : Except Mismatch Limits)) = _
  cases which
  · change b.integer settings sizeName 1000 = r at hvalue
    change b.integer settings ageName 1000 = .ok 1000 at hother
    rw [hvalue, hother]
    cases r <;> rfl
  · change b.integer settings ageName 1000 = r at hvalue
    change b.integer settings sizeName 1000 = .ok 1000 at hother
    rw [hvalue, hother]
    cases r <;> rfl

/-- Loading takes the text for an integer, or fails. -/
theorem load_of_sets (hb : b.Merges) (hp : b.Parses) (hc : b.Coerces) (h : Sets b env which s)
    (hs : Decimal.toInt64? s.toList = none) : b.load none env =
      match coerced? s with
      | some n => .ok (which.limits n)
      | none => .error (.unreadable
          (b.reason ⟨which.name, b.place .environment (.text s)⟩)) := by
  have hempty : b.Plain [] := ⟨fun e he ↦ absurd he List.not_mem_nil,
    fun e he ↦ absurd he List.not_mem_nil⟩
  have hlookup (name : String) := hb.lookup_sources hempty h.plain (Backend.fileOrigin none) name
  have hnone : b.Holds none [] := rfl
  have hsources := Backend.sources_eq hnone env
  rw [Backend.load_of_sources hsources]
  generalize b.merge (b.merge [] (Backend.fileOrigin none) []) .environment
    (b.fromVariables Environment.variablePrefix env) = settings at hlookup ⊢
  have hother : b.integer settings which.other.name 1000 = .ok 1000 := by
    rw [Backend.integer_eq_ok_iff, hlookup, h.said?_other]
    rfl
  have hvalue : b.integer settings which.name 1000 =
      (coerced? s).elim (.error ⟨which.name, b.place .environment (.text s)⟩) .ok := by
    have hint64 := Backend.int64?_guess hp hc hs
    cases hcoerced : coerced? s with
    | none =>
      rw [hcoerced, hp.guess_eq_text hs hcoerced] at hint64
      rw [Backend.integer, hlookup, h.said?_eq, hp.guess_eq_text hs hcoerced]
      simp only [Option.map_some, Option.some_or, hb.datum_place, hint64]
      rfl
    | some n =>
      rw [hcoerced] at hint64
      rw [Backend.integer_eq_ok_iff.mpr]
      · rfl
      · rw [hlookup, h.said?_eq]
        simpa [hb.datum_place] using hint64
  rw [limits_of_other hvalue hother]
  cases coerced? s <;> rfl

/-! ### When the default is in use -/

theorem le_zero_iff {n : Int64} : n ≤ 0 ↔ ¬ 0 < n.toInt := by
  rw [Int64.le_iff_toInt_le, Int64.toInt_zero, not_lt]

theorem fallbacks_limits (which : Which) (n : Int64) : (which.limits n).check.fallbacks =
    if n ≤ 0 then [which.fallback (Decimal.text n.toInt)] else [] := by
  have hstandard : ¬ (1000 : Int64) ≤ 0 := by decide
  cases which
  · change (if n ≤ 0 then _ else _) ++ (if (1000 : Int64) ≤ 0 then _ else _) = _
    rw [if_neg hstandard, List.append_nil]
    rfl
  · change (if (1000 : Int64) ≤ 0 then _ else _) ++ (if n ≤ 0 then _ else _) = _
    rw [if_neg hstandard, List.nil_append]
    rfl

theorem fallbacks_limits_eq_nil_iff (which : Which) (n : Int64) :
    (which.limits n).check.fallbacks = [] ↔ ¬ n ≤ 0 := by
  rw [fallbacks_limits]
  split <;> simp [*]

theorem effective_limits (which : Which) {n : Int64} (hn : n ≤ 0) :
    which.effective (which.limits n).policy = 1000 := by
  have hdefault := positiveOr_of_not_pos 1000 (le_zero_iff.mp hn)
  cases which
  · exact congrArg UInt64.toNat hdefault
  · refine (toMillis_maxAge _).trans ?_
    exact congrArg UInt64.toNat hdefault

/-- A parameter with the same text falls back, and is reported with it. -/
theorem check_parameter (which : Which) (hs : Decimal.toInt64? s.toList = none)
    (htrim : Text.trimChars s.toList = s.toList) :
    Parameters.check (fun key ↦ if key = which.parameter then some s else none) =
      ⟨Policy.standard, [which.fallback s]⟩ := by
  have hvalue : Parameters.value? s = none := by rw [Parameters.value?, htrim, hs]
  have hlimits : Parameters.limits (fun key ↦ if key = which.parameter then some s else none) =
      {} := by
    have hvalueOr : Parameters.valueOr 1000 (some s) = 1000 := by
      simp [Parameters.valueOr, hvalue]
    cases which
    · exact congrArg (Limits.mk · 1000) hvalueOr
    · exact congrArg (Limits.mk 1000 ·) hvalueOr
  have hfallbacks : Parameters.fallbacks
      (fun key ↦ if key = which.parameter then some s else none) = [which.fallback s] := by
    have hunreadable : Parameters.unreadable (some s) = some s := by
      simp [Parameters.unreadable, hvalue]
    unfold Parameters.fallbacks
    cases which
    · change ((Parameters.unreadable (some s)).map Fallback.size).toList ++ [] = _
      rw [hunreadable]
      rfl
    · change [] ++ ((Parameters.unreadable (some s)).map Fallback.age).toList = _
      rw [hunreadable]
      rfl
  unfold Parameters.check
  rw [hlimits, hfallbacks]
  rfl

theorem exists_load_iff (hb : b.Merges) (hp : b.Parses) (hc : b.Coerces)
    (hsets : Sets b env which s) (hs : Decimal.toInt64? s.toList = none) {p : Limits → Prop} :
    (∃ l, b.load none env = .ok l ∧ p l) ↔ ∃ n, coerced? s = some n ∧ p (which.limits n) := by
  rw [load_of_sets hb hp hc hsets hs]
  cases coerced? s <;> simp

/-- A text that is no integer means the default, and is reported, exactly if it is a word for no or
the text of a double that comes to no positive integer. A word for yes and any other double are
taken for an integer and used without a report, and every other text makes loading fail, although a
job parameter with the same text means the default. -/
theorem fallsBack_iff (hb : b.Merges) (hp : b.Parses) (hc : b.Coerces) (hsets : Sets b env which s)
    (hs : ∀ n, Decimal.Denotes s.toList n → n < -2 ^ 63 ∨ 2 ^ 63 ≤ n) :
    (FallsBack b env which ↔ Text.lower s ∈ offWords ∨
      ∃ x, Binary64.ofText? s.toList = some x ∧ x.toInt64 ≤ 0) ∧
    (∀ l, b.load none env = .ok l ∧ l.check.fallbacks = [] ↔ ∃ n, ¬ n ≤ 0 ∧ l = which.limits n ∧
      (Text.lower s ∈ onWords ∧ n = 1 ∨
        ∃ x, Binary64.ofText? s.toList = some x ∧ n = x.toInt64)) ∧
    (b.load none env = .error (.unreadable
        (b.reason ⟨which.name, b.place .environment (.text s)⟩)) ↔
      Text.lower s ∉ onWords ∧ Text.lower s ∉ offWords ∧ Binary64.ofText? s.toList = none) ∧
    (Text.Trims s.toList s.toList →
      Parameters.check (fun key ↦ if key = which.parameter then some s else none) =
        ⟨Policy.standard, [which.fallback s]⟩) := by
  replace hs := Decimal.toInt64?_eq_none_iff.mpr hs
  have hone : ¬ (1 : Int64) ≤ 0 := by decide
  have hzero : (0 : Int64) ≤ 0 := by decide
  refine ⟨?falls, ?silent, ?refused,
    fun htrims ↦ check_parameter which hs (Text.trimChars_eq_iff.mpr htrims)⟩
  case falls =>
    have hdefault (n : Int64) : (which.effective (which.limits n).policy = 1000 ∧
        ∃ configured, which.fallback configured ∈ (which.limits n).check.fallbacks) ↔ n ≤ 0 := by
      rw [fallbacks_limits]
      constructor
      · rintro ⟨-, configured, hmem⟩
        by_contra hn
        rw [if_neg hn] at hmem
        cases hmem
      · intro hn
        rw [if_pos hn]
        exact ⟨effective_limits which hn, _, List.mem_singleton_self _⟩
    rw [FallsBack, exists_load_iff hb hp hc hsets hs]
    simp only [hdefault, exists_coerced?_iff, hone, hzero, and_false, false_or, and_true]
  case silent =>
    intro l
    rw [load_of_sets hb hp hc hsets hs]
    constructor
    · rintro ⟨hl, hfallbacks⟩
      cases hcoerced : coerced? s with
      | none =>
        rw [hcoerced] at hl
        cases hl
      | some n =>
        rw [hcoerced] at hl
        cases hl
        have hn := (fallbacks_limits_eq_nil_iff which n).mp hfallbacks
        exact ⟨n, hn, rfl, (coerced?_eq_some_iff_of_pos hn).mp hcoerced⟩
    · rintro ⟨n, hn, rfl, hvalue⟩
      rw [(coerced?_eq_some_iff_of_pos hn).mpr hvalue]
      exact ⟨rfl, (fallbacks_limits_eq_nil_iff which n).mpr hn⟩
  case refused =>
    rw [← coerced?_eq_none_iff, load_of_sets hb hp hc hsets hs]
    cases coerced? s <;> simp

/-- A word for no falls back, the text of a duration makes loading fail. -/
theorem fallsBack_off :
    FallsBack .standard [(Which.size.variableName, "OFF")] .size ∧
      load none [(Which.age.variableName, "1s")] = .error (.unreadable
        (Mismatch.text ⟨"max_bundle_time_millis", ⟨.text "1s", some "the environment"⟩⟩)) := by
  have hoff : Decimal.toInt64? "OFF".toList = none := by decide +kernel
  have hduration : Decimal.toInt64? "1s".toList = none := by decide +kernel
  exact ⟨(fallsBack_iff Backend.standard_merges Backend.standard_parses Backend.standard_coerces
      (sets_variableName Backend.standard_merges .size "OFF")
      (Decimal.toInt64?_eq_none_iff.mp hoff)).1.mpr (.inl (by decide +kernel)),
    (fallsBack_iff Backend.standard_merges Backend.standard_parses Backend.standard_coerces
      (sets_variableName Backend.standard_merges .age "1s")
      (Decimal.toInt64?_eq_none_iff.mp hduration)).2.2.1.mpr (by decide +kernel)⟩

/-- Not every text that is no integer falls back. -/
theorem not_fallsBack : ¬ ∀ b : Backend, b.Merges → b.Parses → b.Coerces →
    ∀ (which : Which) (s : String),
      (∀ n, Decimal.Denotes s.toList n → n < -2 ^ 63 ∨ 2 ^ 63 ≤ n) →
        FallsBack b [(which.variableName, s)] which := by
  intro h
  have hs : Decimal.toInt64? "soon".toList = none := by decide +kernel
  have hcoerced : coerced? "soon" = none := by decide +kernel
  obtain ⟨l, hl, -⟩ := h .standard Backend.standard_merges Backend.standard_parses
    Backend.standard_coerces .size "soon" (Decimal.toInt64?_eq_none_iff.mp hs)
  rw [load_of_sets Backend.standard_merges Backend.standard_parses Backend.standard_coerces
    (sets_variableName Backend.standard_merges .size "soon") hs, hcoerced] at hl
  cases hl

end Limits

end Bundling
