import Bundling.Document.Toml
import Bundling.Proofs.IntegerTables

/-!
Integers by name as TOML text, a line for each. The reader takes no integer for a date or a time,
and gets from the lines exactly the integers that were written, under their names.
-/

set_option autoImplicit false
set_option relaxedAutoImplicit false

namespace Bundling

namespace Toml

open IntegerTable

variable {cs rest : List Char} {n : Int64} {c : Char}

/-! ### Integers -/

/-- Behind digits of a written integer comes another one or the end of its line. -/
theorem symbol?_of_fixed? {count value : Nat} {more : List Char} (hcount : 0 < count)
    (hfixed : Reader.fixed? count (Decimal.ofInt n.toInt ++ '\n' :: rest) = some (value, more))
    (hdigit : c.isDigit = false) (hbreak : c ≠ '\n') : symbol? c more = none := by
  unfold Reader.fixed? at hfixed
  obtain ⟨⟨hlength, hdigits⟩, hmore⟩ := Option.ite_none_right_eq_some.mp hfixed
  obtain ⟨-, rfl⟩ := Prod.mk.inj (Option.some.inj hmore)
  obtain ⟨d, ds, hof, -, hds⟩ := Decimal.exists_ofInt_cons n.toInt
  obtain ⟨count, rfl⟩ := Nat.exists_eq_succ_of_ne_zero (Nat.ne_of_gt hcount)
  rw [hof] at hlength hdigits ⊢
  -- the line break is no digit, so it is not among those taken
  have hle : count ≤ ds.length := by
    by_contra hlt
    have hmem : '\n' ∈ (d :: ds ++ '\n' :: rest).take (count + 1) := by
      rw [List.take_append, List.take_of_length_le (by rw [List.length_cons]; omega)]
      refine List.mem_append_right _ ?_
      obtain ⟨k, hk⟩ : ∃ k, count + 1 - (d :: ds).length = k + 1 :=
        ⟨count + 1 - (d :: ds).length - 1, by rw [List.length_cons]; omega⟩
      rw [hk]
      exact List.mem_cons_self
    exact absurd (List.all_eq_true.mp hdigits _ hmem) (by decide)
  change symbol? c ((ds ++ '\n' :: rest).drop count) = none
  rw [List.drop_append_of_le_length hle]
  cases hdrop : ds.drop count with
  | nil => exact if_neg (Ne.symm hbreak)
  | cons d' ds' =>
    have hd' : d' ∈ ds := List.mem_of_mem_drop (hdrop ▸ List.mem_cons_self)
    exact if_neg (Decimal.ne_of_isDigit (hds d' hd') hdigit)

theorem moment?_integer : moment? (Decimal.ofInt n.toInt ++ '\n' :: rest) = none := by
  have hdate : date? (Decimal.ofInt n.toInt ++ '\n' :: rest) = none := by
    unfold date?
    cases hfixed : Reader.fixed? 4 (Decimal.ofInt n.toInt ++ '\n' :: rest) with
    | none => rfl
    | some found =>
      have hsymbol := symbol?_of_fixed? (c := '-') (by decide) hfixed rfl (by decide)
      change (symbol? '-' found.2).bind _ = none
      rw [hsymbol]
      rfl
  have htime : time? (Decimal.ofInt n.toInt ++ '\n' :: rest) = none := by
    unfold time?
    cases hfixed : Reader.fixed? 2 (Decimal.ofInt n.toInt ++ '\n' :: rest) with
    | none => rfl
    | some found =>
      have hsymbol := symbol?_of_fixed? (c := ':') (by decide) hfixed rfl (by decide)
      change (symbol? ':' found.2).bind _ = none
      rw [hsymbol]
      rfl
  rw [moment?, hdate]
  exact htime

theorem grouped_digits (h : ∀ d ∈ cs, d.isDigit = true) (rest : List Char) :
    grouped Char.isDigit (cs ++ '\n' :: rest) = (cs, '\n' :: rest) := by
  induction cs with
  | nil => rfl
  | cons d cs ih =>
    obtain ⟨hd, hcs⟩ := List.forall_mem_cons.mp h
    have hrest := ih hcs
    rw [List.cons_append]
    unfold grouped
    split
    · next heq => cases heq
    · next heq => exact absurd (List.cons.inj heq).1 (Decimal.ne_of_isDigit hd rfl)
    · next heq =>
      obtain ⟨rfl, rfl⟩ := List.cons.inj heq
      rw [if_pos hd, hrest]

theorem whole?_ofNat (m : Nat) :
    whole? (Decimal.ofNat m ++ '\n' :: rest) = some (Decimal.ofNat m, '\n' :: rest) := by
  rcases Nat.eq_zero_or_pos m with rfl | hpos
  · rfl
  · obtain ⟨d, ds, hof, hd, hds⟩ := Decimal.exists_ofNat_cons m
    have hhead := Decimal.head?_ofNat hpos
    rw [hof] at hhead ⊢
    unfold whole?
    split
    · next heq => exact absurd (congrArg some (List.cons.inj heq).1) hhead
    · have hgrouped := grouped_digits hds rest
      change (if d.isDigit = true then some (d :: (grouped Char.isDigit (ds ++ '\n' :: rest)).1,
        (grouped Char.isDigit (ds ++ '\n' :: rest)).2) else none) = _
      rw [if_pos hd, hgrouped]

/-- What starts with a digit is no infinity and no missing number. -/
theorem special?_of_isDigit (hc : c.isDigit = true) (cs : List Char) :
    special? (c :: cs) = none := by
  have hinf : Reader.after? "inf" (c :: cs) = none := by
    have hne : 'i' ≠ c := (Decimal.ne_of_isDigit hc rfl).symm
    simp [Reader.after?, hne]
  have hnan : Reader.after? "nan" (c :: cs) = none := by
    have hne : 'n' ≠ c := (Decimal.ne_of_isDigit hc rfl).symm
    simp [Reader.after?, hne]
  rw [special?, hinf, hnan]

theorem sign_ofInt (k : Int) (rest : List Char) : sign (Decimal.ofInt k ++ rest) =
    (if k < 0 then ['-'] else [], Decimal.ofNat k.natAbs ++ rest) := by
  rw [Decimal.ofInt_eq]
  by_cases hneg : k < 0
  · rw [if_pos hneg]
    rfl
  · obtain ⟨d, ds, hof, hd, -⟩ := Decimal.exists_ofNat_cons k.natAbs
    rw [if_neg hneg, List.nil_append, hof]
    unfold sign
    split
    · next heq => exact absurd (List.cons.inj heq).1 (Decimal.ne_of_isDigit hd rfl)
    · next heq => exact absurd (List.cons.inj heq).1 (Decimal.ne_of_isDigit hd rfl)
    · rfl

theorem decimal?_integer : decimal? (Decimal.ofInt n.toInt ++ '\n' :: rest) =
    some (.integer n, '\n' :: rest) := by
  obtain ⟨d, ds, hof, hd, -⟩ := Decimal.exists_ofNat_cons n.toInt.natAbs
  have hspecial : special? (Decimal.ofNat n.toInt.natAbs ++ '\n' :: rest) = none := by
    rw [hof]
    exact special?_of_isDigit hd _
  have hvalue : Decimal.toInt64? ((if n.toInt < 0 then ['-'] else []) ++
      Decimal.ofNat n.toInt.natAbs) = some n := by
    rw [← Decimal.ofInt_eq]
    exact Decimal.toInt64?_ofInt n
  unfold decimal?
  rw [sign_ofInt]
  dsimp only
  rw [hspecial, whole?_ofNat]
  change (Decimal.toInt64? ((if n.toInt < 0 then ['-'] else []) ++
    Decimal.ofNat n.toInt.natAbs)).bind (fun n ↦ some (Number.integer n, '\n' :: rest)) = _
  rw [hvalue]
  rfl

theorem number?_integer : number? (Decimal.ofInt n.toInt ++ '\n' :: rest) =
    some (.integer n, '\n' :: rest) := by
  -- no letter for a base comes second
  have hsecond {c d : Char} {more : List Char} (hc : c.isDigit = false) (hbreak : '\n' ≠ c) :
      Decimal.ofInt n.toInt ++ '\n' :: rest ≠ d :: c :: more :=
    Decimal.ofInt_append_ne_cons_cons hc fun h ↦ hbreak (Option.some.inj h)
  unfold number?
  split
  · next heq => exact absurd heq (hsecond rfl (by decide))
  · next heq => exact absurd heq (hsecond rfl (by decide))
  · next heq => exact absurd heq (hsecond rfl (by decide))
  · exact decimal?_integer

theorem value?_integer (depth : Nat) : value? (depth + 1) (Decimal.ofInt n.toInt ++ '\n' :: rest) =
    some (.integer n, '\n' :: rest) := by
  have hscalar : scalar? (Decimal.ofInt n.toInt ++ '\n' :: rest) =
      some (.integer n, '\n' :: rest) := by
    unfold scalar?
    split
    · next heq => exact absurd heq (Decimal.ofInt_append_ne_cons rfl (by decide))
    · next heq => exact absurd heq (Decimal.ofInt_append_ne_cons rfl (by decide))
    · next heq => exact absurd heq (Decimal.ofInt_append_ne_cons rfl (by decide))
    · next heq => exact absurd heq (Decimal.ofInt_append_ne_cons rfl (by decide))
    · rw [moment, moment?_integer, number, number?_integer]
      rfl
  unfold value?
  split
  · next heq => exact absurd heq (Decimal.ofInt_append_ne_cons rfl (by decide))
  · next heq => exact absurd heq (Decimal.ofInt_append_ne_cons rfl (by decide))
  · exact hscalar

/-! ### Lines -/

variable {e : String × Int64} {t : IntegerTable}

theorem isBare_of_isNameLetter (h : isNameLetter c = true) : isBare c = true := by
  simp only [isNameLetter, isBare, Bool.or_eq_true] at h ⊢
  rcases h with (h | h) | h
  · exact .inl (.inl (.inl (.inl h)))
  · exact .inl (.inl (.inl (.inr h)))
  · exact .inl (.inr h)

theorem skipBlank_cons (h : isBlank c = false) (cs : List Char) :
    skipBlank (c :: cs) = c :: cs := by
  simp [skipBlank, h]

theorem isBlank_of_isNameLetter (h : isNameLetter c = true) : isBlank c = false := by
  simp only [isBlank, Bool.or_eq_false_iff, beq_eq_false_iff_ne]
  exact ⟨ne_of_isNameLetter h rfl, ne_of_isNameLetter h rfl⟩

/-- A bare name is a key on its own. -/
theorem key?_of_letters {name : String} (hne : name.toList ≠ [])
    (hname : ∀ c ∈ name.toList, isNameLetter c = true) (rest : List Char) :
    key? (name.toList ++ ' ' :: '=' :: rest) = some (([], name), '=' :: rest) := by
  have hsome : Reader.some? isBare (name.toList ++ ' ' :: '=' :: rest) =
      some (name.toList, ' ' :: '=' :: rest) :=
    Reader.some?_append hne (fun c hc ↦ isBare_of_isNameLetter (hname c hc)) (by simp; decide)
  obtain ⟨c, cs, hcs⟩ := List.exists_cons_of_ne_nil hne
  have hc : isNameLetter c = true := hname c (hcs ▸ List.mem_cons_self)
  have hpart : keyPart? (name.toList ++ ' ' :: '=' :: rest) = some (name, ' ' :: '=' :: rest) := by
    have hquote {d : Char} {more : List Char}
        (heq : name.toList ++ ' ' :: '=' :: rest = d :: more) (hd : isNameLetter d = false) :
        False := by
      rw [hcs] at heq
      exact ne_of_isNameLetter hc hd (List.cons.inj heq).1
    unfold keyPart?
    split
    · next heq => exact (hquote heq rfl).elim
    · next heq => exact (hquote heq rfl).elim
    · rw [hsome, Option.map_some, String.ofList_toList]
  have hskip : skipBlank (name.toList ++ ' ' :: '=' :: rest) =
      name.toList ++ ' ' :: '=' :: rest := by
    rw [hcs]
    exact skipBlank_cons (isBlank_of_isNameLetter hc) _
  have hparts : keyParts? sizeLimit (name.toList ++ ' ' :: '=' :: rest) =
      some ([name], '=' :: rest) := by
    change (keyPart? (skipBlank (name.toList ++ ' ' :: '=' :: rest))).bind _ = _
    rw [hskip, hpart]
    rfl
  unfold key?
  rw [hparts]
  rfl

/-- What stands between a name and its integer. -/
def mark : List Char := [' ', '=', ' ']

/-- A line is read as the assignment that was written. -/
theorem line?_entryLine (hne : e.1.toList ≠ [])
    (hname : ∀ c ∈ e.1.toList, isNameLetter c = true) (rest : List Char) :
    line? (entryLine mark e ++ rest) = some (.assign [] e.1 (.integer e.2), rest) := by
  have htext : entryLine mark e ++ rest =
      e.1.toList ++ ' ' :: '=' :: ' ' :: (Decimal.ofInt e.2.toInt ++ '\n' :: rest) := by
    simp [entryLine, mark]
  have hassignment : assignment? (value? (sizeLimit - 1))
      (e.1.toList ++ ' ' :: '=' :: ' ' :: (Decimal.ofInt e.2.toInt ++ '\n' :: rest)) =
      some ((([], e.1), .integer e.2), '\n' :: rest) := by
    obtain ⟨d, ds, hof, hd, -⟩ := Decimal.exists_ofInt_cons e.2.toInt
    have hblank : isBlank d = false := by
      simp only [isBlank, Bool.or_eq_false_iff, beq_eq_false_iff_ne]
      exact ⟨Decimal.ne_of_first hd rfl (by decide), Decimal.ne_of_first hd rfl (by decide)⟩
    have hskip : skipBlank (' ' :: (Decimal.ofInt e.2.toInt ++ '\n' :: rest)) =
        Decimal.ofInt e.2.toInt ++ '\n' :: rest := by
      rw [hof]
      exact skipBlank_cons hblank _
    have hvalue : value? (78 + 1) (Decimal.ofInt e.2.toInt ++ '\n' :: rest) =
        some (.integer e.2, '\n' :: rest) := value?_integer 78
    unfold assignment?
    rw [key?_of_letters hne hname]
    change (value? (sizeLimit - 1) (skipBlank (' ' :: _))).bind _ = _
    rw [hskip]
    change (value? (78 + 1) _).bind _ = _
    rw [hvalue]
    rfl
  obtain ⟨c, cs, hcs⟩ := List.exists_cons_of_ne_nil hne
  have hc : isNameLetter c = true := hname c (hcs ▸ List.mem_cons_self)
  have hother : ¬ (c = '#' ∨ c = '\n' ∨ c = '\r') := by
    rintro (rfl | rfl | rfl) <;> cases hc
  rw [htext]
  rw [hcs, List.cons_append] at hassignment ⊢
  unfold line?
  rw [skipBlank_cons (isBlank_of_isNameLetter hc)]
  split
  · next heq => cases heq
  · next heq => exact absurd (List.cons.inj heq).1 (ne_of_isNameLetter hc rfl)
  · next heq => exact absurd (List.cons.inj heq).1 (ne_of_isNameLetter hc rfl)
  · next heq =>
    obtain ⟨rfl, rfl⟩ := List.cons.inj heq
    rw [if_neg hother, hassignment]
    rfl

/-! ### Documents -/

theorem lines?_lines (hletters : ∀ e ∈ t, e.1.toList ≠ [] ∧
    ∀ c ∈ e.1.toList, isNameLetter c = true) (fuel : Nat) (hfuel : t.length ≤ fuel) :
    lines? fuel (lines mark t) = some (t.map fun e ↦ .assign [] e.1 (.integer e.2)) := by
  induction t generalizing fuel with
  | nil => cases fuel <;> rfl
  | cons e t ih =>
    obtain ⟨⟨hne, hname⟩, hletters⟩ := List.forall_mem_cons.mp hletters
    obtain ⟨fuel, rfl⟩ := Nat.exists_eq_succ_of_ne_zero
      (Nat.ne_of_gt (Nat.lt_of_lt_of_le (Nat.zero_lt_succ _) hfuel))
    have hline := line?_entryLine hne hname (lines mark t)
    have hrest := ih hletters fuel (by simpa using hfuel)
    obtain ⟨c, cs, hcs, -⟩ := exists_entryLine_cons hne hname mark
    rw [lines_cons]
    rw [hcs, List.cons_append] at hline ⊢
    change (line? (c :: (cs ++ lines mark t))).bind (fun r ↦ (lines? fuel r.2).bind fun lines ↦
      some (r.1 :: lines)) = _
    rw [hline, Option.bind_some, hrest]
    rfl

/-- An assignment outside all tables adds a name that is not taken. -/
theorem add_assign {es : Entries} {key : String} {d : Datum} (h : es.get? key = none) :
    Draft.add ⟨es, []⟩ (.assign [] key d) = some ⟨es ++ [(key, .value d)], []⟩ := by
  have hadd : Entries.addValue [] key d false es = some (es ++ [(key, .value d)]) := by
    change (if (false == true || (es.get? key).isSome) = true then none else
      some (es ++ [(key, Node.value d)])) = _
    rw [h]
    rfl
  change (Entries.addValue [] key d false es).map _ = _
  rw [hadd]
  rfl

theorem foldlM_add (es : Entries) (hnodup : (es.map Prod.fst ++ t.map Prod.fst).Nodup) :
    (t.map fun e ↦ Line.assign [] e.1 (.integer e.2)).foldlM Draft.add ⟨es, []⟩ =
      some ⟨es ++ t.map fun e ↦ (e.1, .value (.integer e.2)), []⟩ := by
  induction t generalizing es with
  | nil => simp
  | cons e t ih =>
    have hfresh : es.get? e.1 = none := by
      refine List.lookup_eq_none_iff.mpr fun p hp ↦ ?_
      obtain ⟨-, -, hdisjoint⟩ := List.nodup_append.mp hnodup
      have hne := hdisjoint p.1 (List.mem_map_of_mem hp) e.1 List.mem_cons_self
      exact bne_iff_ne.mpr hne.symm
    rw [List.map_cons, List.foldlM_cons, add_assign hfresh, Option.bind_eq_bind, Option.bind_some,
      ih _ (by simpa using hnodup)]
    simp

theorem document?_of_head (h : ∀ c ∈ cs.head?, c ≠ byteOrderMark) : document? cs =
    (lines? (cs.length + 1) cs).bind fun lines ↦
      (lines.foldlM Draft.add {}).bind fun draft ↦ some draft.entries.document := by
  cases cs with
  | nil => rfl
  | cons c cs =>
    unfold document?
    simp only [if_neg (h c rfl)]
    rfl

end Toml

namespace IntegerTable

/-- The lines of a table are read as the document that it is. -/
theorem toml_document? {t : IntegerTable} (h : t.Named) :
    Toml.document? (lines Toml.mark t) = some t.document := by
  have hlines := Toml.lines?_lines h.letters ((lines Toml.mark t).length + 1)
    (Nat.le_succ_of_le (length_le_lines Toml.mark t))
  have hadded := Toml.foldlM_add (t := t) [] (by simpa using h.nodup)
  have hdocument : Toml.Entries.document
      (t.map fun e ↦ (e.1, Toml.Node.value (.integer e.2))) = t.document := by
    rw [Toml.Entries.document, List.map_map]
    rfl
  rw [Toml.document?_of_head fun c hc ↦ ne_of_isNameLetter (h.head?_lines Toml.mark c hc) rfl,
    hlines, Option.bind_some]
  rw [List.nil_append] at hadded
  rw [hadded, Option.bind_some, hdocument]

end IntegerTable

end Bundling
