import Bundling.Document.Datum
import Bundling.Document.Reader
import Bundling.Proofs.Numerals
import Mathlib.Data.List.Induction
import Mathlib.Data.List.TakeDrop

/-!
Integers by name, as settings hold them. Names are made of letters and underscores, so no format has
to quote them and none takes them for a path. An integer is written with digits behind at most one
sign and without zeros in front, which is what the readers of all formats rely on.
-/

set_option autoImplicit false
set_option relaxedAutoImplicit false

namespace Bundling

namespace Reader

variable {p : Char → Bool} {cs rest : List Char}

theorem takeWhile_append (hcs : ∀ c ∈ cs, p c = true) (hrest : ∀ c ∈ rest.head?, p c = false) :
    (cs ++ rest).takeWhile p = cs ∧ (cs ++ rest).dropWhile p = rest := by
  rw [List.takeWhile_append_of_pos hcs, List.dropWhile_append_of_pos hcs]
  cases rest with
  | nil => simp
  | cons c rest => simp [hrest c rfl]

/-- One or more characters of a kind are read up to one of another kind. -/
theorem some?_append (hne : cs ≠ []) (hcs : ∀ c ∈ cs, p c = true)
    (hrest : ∀ c ∈ rest.head?, p c = false) : some? p (cs ++ rest) = some (cs, rest) := by
  obtain ⟨htake, hdrop⟩ := takeWhile_append hcs hrest
  unfold some?
  rw [htake, hdrop]
  cases cs with
  | nil => exact absurd rfl hne
  | cons c cs => rfl

end Reader

/-! ### Written integers -/

namespace Decimal

variable {n : Nat}

theorem ne_of_isDigit {c d : Char} (hc : c.isDigit = true) (hd : d.isDigit = false) : c ≠ d := by
  rintro rfl
  rw [hc] at hd
  cases hd

/-- No number but zero starts with a zero. -/
theorem head?_ofNat (hn : 0 < n) : (ofNat n).head? ≠ some '0' := by
  have hdigit : ∀ m < 10, 0 < m → m.digitChar ≠ '0' := by decide
  induction n using Nat.strong_induction_on with
  | _ n ih =>
    unfold ofNat at ih ⊢
    by_cases hlt : n < 10
    · rw [Nat.toDigits_of_lt_base hlt, List.head?_cons]
      exact fun h ↦ hdigit n hlt hn (Option.some.inj h)
    · rw [Nat.toDigits_of_base_le (by decide) (by omega), List.head?_append]
      have hhead := ih (n / 10) (by omega) (by omega)
      cases hq : (Nat.toDigits 10 (n / 10)).head? with
      | none =>
        have hnil := List.head?_eq_none_iff.mp hq
        exact absurd hnil (ofNat_ne_nil _)
      | some d =>
        rw [hq] at hhead
        exact hhead

/-- An integer is written with a digit or a minus sign first, and digits behind that. -/
theorem ofInt_eq (k : Int) : ofInt k = (if k < 0 then ['-'] else []) ++ ofNat k.natAbs := by
  unfold ofInt
  split <;> rfl

theorem exists_ofNat_cons (n : Nat) : ∃ d ds, ofNat n = d :: ds ∧ d.isDigit = true ∧
    ∀ c ∈ ds, c.isDigit = true := by
  have hdigits := List.all_eq_true.mp (all_isDigit_ofNat n)
  cases hof : ofNat n with
  | nil => exact absurd hof (ofNat_ne_nil n)
  | cons d ds =>
    rw [hof] at hdigits
    exact ⟨d, ds, rfl, hdigits d List.mem_cons_self, fun c hc ↦
      hdigits c (List.mem_cons_of_mem _ hc)⟩

theorem exists_ofInt_cons (k : Int) : ∃ d ds, ofInt k = d :: ds ∧ (d = '-' ∨ d.isDigit = true) ∧
    ∀ c ∈ ds, c.isDigit = true := by
  obtain ⟨d, ds, hof, hd, hds⟩ := exists_ofNat_cons k.natAbs
  rw [ofInt_eq, hof]
  split
  · exact ⟨'-', d :: ds, rfl, .inl rfl, List.forall_mem_cons.mpr ⟨hd, hds⟩⟩
  · exact ⟨d, ds, rfl, .inr hd, hds⟩

/-- An integer starts with no other character. -/
theorem ne_of_first {c d : Char} (hd : d = '-' ∨ d.isDigit = true) (hc : c.isDigit = false)
    (hminus : c ≠ '-') : d ≠ c := by
  rcases hd with rfl | hd
  · exact hminus.symm
  · exact ne_of_isDigit hd hc

theorem forall_mem_ofInt (k : Int) : ∀ c ∈ ofInt k, c = '-' ∨ c.isDigit = true := by
  obtain ⟨d, ds, hof, hd, hds⟩ := exists_ofInt_cons k
  rw [hof]
  exact List.forall_mem_cons.mpr ⟨hd, fun c hc ↦ .inr (hds c hc)⟩

/-- A text that an integer stands at the start of starts with no other character. -/
theorem ofInt_append_ne_cons {k : Int} {c : Char} {rest more : List Char} (hc : c.isDigit = false)
    (hminus : c ≠ '-') : ofInt k ++ rest ≠ c :: more := by
  obtain ⟨d, ds, hof, hd, -⟩ := exists_ofInt_cons k
  rw [hof]
  exact fun heq ↦ ne_of_first hd hc hminus (List.cons.inj heq).1

/-- The second character of an integer, if it has one, is a digit. -/
theorem ofInt_append_ne_cons_cons {k : Int} {c d : Char} {rest more : List Char}
    (hc : c.isDigit = false) (hrest : rest.head? ≠ some c) :
    ofInt k ++ rest ≠ d :: c :: more := by
  obtain ⟨d', ds, hof, -, hds⟩ := exists_ofInt_cons k
  rw [hof]
  intro heq
  have htail : ds ++ rest = c :: more := (List.cons.inj heq).2
  cases ds with
  | nil => exact hrest (congrArg List.head? htail)
  | cons d'' ds => exact ne_of_isDigit (hds d'' List.mem_cons_self) hc (List.cons.inj htail).1

/-- An integer is written as no word. -/
theorem text_ne {word : String}
    (h : (word.toList.head?.all fun c ↦ !c.isDigit && c != '-') = true) (k : Int) :
    text k ≠ word := by
  rintro rfl
  obtain ⟨d, ds, hof, hd, -⟩ := exists_ofInt_cons k
  rw [text, String.toList_ofList, hof, List.head?_cons, Option.all_some, Bool.and_eq_true,
    Bool.not_eq_true', bne_iff_ne] at h
  exact ne_of_first hd h.1 h.2 rfl

end Decimal

/-! ### Names -/

/-- The characters of names that are written without quotes everywhere. -/
def isNameLetter (c : Char) : Bool :=
  ('a' ≤ c && c ≤ 'z') || ('A' ≤ c && c ≤ 'Z') || c == '_'

theorem ne_of_isNameLetter {c d : Char} (hc : isNameLetter c = true) (hd : isNameLetter d = false) :
    c ≠ d := by
  rintro rfl
  rw [hc] at hd
  cases hd

/-- Letters and the underscore, by their code points. -/
theorem toNat_of_isNameLetter {c : Char} (h : isNameLetter c = true) :
    (97 ≤ c.toNat ∧ c.toNat ≤ 122) ∨ (65 ≤ c.toNat ∧ c.toNat ≤ 90) ∨ c.toNat = 95 := by
  simp only [isNameLetter, Bool.or_eq_true, Bool.and_eq_true, decide_eq_true_eq, beq_iff_eq,
    Char.le_def, UInt32.le_iff_toNat_le] at h
  rcases h with (h | h) | rfl
  · exact .inl h
  · exact .inr (.inl h)
  · exact .inr (.inr rfl)

theorem isDigit_of_isNameLetter {c : Char} (h : isNameLetter c = true) : c.isDigit = false := by
  have hcode := toNat_of_isNameLetter h
  rw [Bool.eq_false_iff]
  intro hdigit
  simp only [Char.isDigit, Bool.and_eq_true, decide_eq_true_eq, UInt32.le_iff_toNat_le,
    ge_iff_le] at hdigit
  change 48 ≤ c.toNat ∧ c.toNat ≤ 57 at hdigit
  omega

/-- Integers by name. -/
abbrev IntegerTable := List (String × Int64)

namespace IntegerTable

/-- The names can be written as they are, and no two are the same. `null` and the like have a
meaning of their own in some formats. -/
structure Named (t : IntegerTable) : Prop where
  letters : ∀ e ∈ t, e.1.toList ≠ [] ∧ ∀ c ∈ e.1.toList, isNameLetter c = true
  words : ∀ e ∈ t, e.1 ∉ ["null", "true", "false", "NaN"]
  nodup : (t.map Prod.fst).Nodup

/-- The table as a document. -/
def document (t : IntegerTable) : Document := t.map fun e ↦ (e.1, .integer e.2)

theorem map_fst_document (t : IntegerTable) : t.document.map Prod.fst = t.map Prod.fst := by
  simp [document]

/-- A line for each integer, with a mark between its name and itself. -/
def entryLine (mark : List Char) (e : String × Int64) : List Char :=
  e.1.toList ++ mark ++ Decimal.ofInt e.2.toInt ++ ['\n']

def lines (mark : List Char) (t : IntegerTable) : List Char := t.flatMap (entryLine mark)

variable {t : IntegerTable}

theorem lines_cons (mark : List Char) (e : String × Int64) (t : IntegerTable) :
    lines mark (e :: t) = entryLine mark e ++ lines mark t := rfl

theorem length_le_lines (mark : List Char) (t : IntegerTable) :
    t.length ≤ (lines mark t).length := by
  induction t with
  | nil => exact Nat.le_refl _
  | cons e t ih =>
    rw [lines_cons, List.length_append, List.length_cons, entryLine, List.length_append,
      List.length_singleton]
    omega

theorem exists_entryLine_cons {e : String × Int64} (hne : e.1.toList ≠ [])
    (hname : ∀ c ∈ e.1.toList, isNameLetter c = true) (mark : List Char) :
    ∃ c cs, entryLine mark e = c :: cs ∧ isNameLetter c = true := by
  obtain ⟨c, cs, hcs⟩ := List.exists_cons_of_ne_nil hne
  rw [entryLine, hcs]
  exact ⟨c, _, rfl, hname c (hcs ▸ List.mem_cons_self)⟩

/-- The text starts with a name. -/
theorem Named.head?_lines (h : t.Named) (mark : List Char) :
    ∀ c ∈ (lines mark t).head?, isNameLetter c = true := by
  intro c hc
  cases t with
  | nil => cases hc
  | cons e t =>
    obtain ⟨hne, hname⟩ := h.letters e List.mem_cons_self
    obtain ⟨c', cs, hcs, hc'⟩ := exists_entryLine_cons hne hname mark
    rw [lines_cons, hcs] at hc
    rwa [← Option.some.inj hc]

theorem Named.tail {e : String × Int64} (h : Named (e :: t)) : t.Named :=
  ⟨fun e' he' ↦ h.letters e' (List.mem_cons_of_mem _ he'),
    fun e' he' ↦ h.words e' (List.mem_cons_of_mem _ he'), (List.nodup_cons.mp h.nodup).2⟩

end IntegerTable

namespace Document

/-- Members under different keys are the document. -/
theorem ofMembers_of_nodup {ms : List (String × Datum)} (h : (ms.map Prod.fst).Nodup) :
    ofMembers ms = ms := by
  induction ms using List.reverseRecOn with
  | nil => rfl
  | append_singleton ms m ih =>
    rw [List.map_append, List.nodup_append] at h
    obtain ⟨hms, -, hfresh⟩ := h
    have hfilter : ms.filter (fun e ↦ e.1 != m.1) = ms := by
      refine List.filter_eq_self.mpr fun e he ↦ bne_iff_ne.mpr ?_
      exact hfresh e.1 (List.mem_map_of_mem he) m.1 (List.mem_singleton_self _)
    have hsnoc : ofMembers (ms ++ [m]) = (ofMembers ms).insert m.1 m.2 := List.foldl_append
    rw [hsnoc, ih hms, insert, hfilter]

end Document

end Bundling
