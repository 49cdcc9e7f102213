import Bundling.Proofs.IntegerTables
import Bundling.Threshold.Data

/-!
Integers by name as a JSON object. The reader gets from the text of an object exactly the numerals
that were written. Limits have such an object for their data form and are what it says.
-/

set_option autoImplicit false
set_option relaxedAutoImplicit false

namespace Bundling

/-! ### Numerals -/

namespace Json

/-- What may stand behind a numeral. -/
def EndsNumeral (rest : List Char) : Prop :=
  ∀ c ∈ rest.head?, c.isDigit = false ∧ c ≠ '.' ∧ c ≠ 'e' ∧ c ≠ 'E'

variable {rest : List Char}

theorem part?_of_ends (h : EndsNumeral rest) : part? rest = some (none, rest) := by
  unfold part?
  split
  · exact absurd rfl (h '.' rfl).2.1
  · rfl

theorem power?_of_ends (h : EndsNumeral rest) : power? rest = some (none, rest) := by
  unfold power?
  split
  · exact absurd rfl (h 'e' rfl).2.2.1
  · exact absurd rfl (h 'E' rfl).2.2.2
  · rfl

theorem numeral?_ofNat (negative : Bool) (n : Nat) (h : EndsNumeral rest) :
    numeral? negative (Decimal.ofNat n ++ rest) =
      some (⟨negative, Decimal.ofNat n, none, none⟩, rest) := by
  have hdigits : digits? (Decimal.ofNat n ++ rest) = some (Decimal.ofNat n, rest) :=
    Reader.some?_append (Decimal.ofNat_ne_nil n)
      (List.all_eq_true.mp (Decimal.all_isDigit_ofNat n)) fun c hc ↦ (h c hc).1
  have hzero : ¬ (1 < (Decimal.ofNat n).length ∧ (Decimal.ofNat n).head? = some '0') := by
    rintro ⟨hlong, hhead⟩
    rcases Nat.eq_zero_or_pos n with rfl | hpos
    · exact absurd hlong (by decide)
    · exact Decimal.head?_ofNat hpos hhead
  unfold numeral?
  rw [hdigits]
  change (if 1 < (Decimal.ofNat n).length ∧ (Decimal.ofNat n).head? = some '0' then none else
    (part? rest).bind fun part ↦ (power? part.2).bind fun power ↦
      some (⟨negative, Decimal.ofNat n, part.1, power.1⟩, power.2) :
    Option (Numeral × List Char)) = _
  rw [if_neg hzero, part?_of_ends h, Option.bind_some, power?_of_ends h]
  rfl

theorem int64?_ofInt (n : Int64) : (Numeral.ofInt n.toInt).int64? = some n := by
  have hvalue : Nat.ofDigitChars 10 (Decimal.ofNat n.toInt.natAbs) 0 = n.toInt.natAbs :=
    Nat.ofDigitChars_toDigits (by decide) (by decide)
  have hinteger : (Numeral.ofInt n.toInt).integer? = some n.toInt := by
    unfold Numeral.integer? Numeral.ofInt
    dsimp only
    rw [hvalue]
    by_cases hneg : n.toInt < 0
    · rw [if_pos (decide_eq_true hneg), if_neg (by omega)]
      exact congrArg some (by omega)
    · rw [if_neg (by simpa using hneg)]
      exact congrArg some (by omega)
  rw [Numeral.int64?, hinteger]
  exact Decimal.fit?_toInt n

theorem number?_ofNat (strict negative : Bool) (n : Int64) (hneg : negative = decide (n.toInt < 0))
    (h : EndsNumeral rest) : number? strict negative (Decimal.ofNat n.toInt.natAbs ++ rest) =
      some (integer n.toInt, rest) := by
  have hdatum : (Numeral.ofInt n.toInt).datum?.isNone = false := by
    rw [Numeral.datum?, int64?_ofInt]
    rfl
  unfold number?
  rw [numeral?_ofNat negative _ h, hneg]
  change (if strict ∧ (Numeral.ofInt n.toInt).datum?.isNone then none else
    some (integer n.toInt, rest) : Option (Json × List Char)) = _
  rw [hdatum, if_neg (by simp)]

/-- What starts with a digit is no string, no name of a value and no list or object. -/
theorem scalar?_of_isDigit (strict : Bool) {d : Char} (hd : d.isDigit = true) (cs : List Char) :
    scalar? strict (d :: cs) = number? strict false (d :: cs) := by
  have hne {c : Char} {cs' : List Char} (heq : d :: cs = c :: cs') (hc : c.isDigit = false) :
      False := Decimal.ne_of_isDigit hd hc (List.cons.inj heq).1
  unfold scalar?
  split
  · next heq => exact (hne heq rfl).elim
  · next heq => exact (hne heq rfl).elim
  · next heq => exact (hne heq rfl).elim
  · next heq => exact (hne heq rfl).elim
  · next heq => exact (hne heq rfl).elim
  · rfl

theorem value?_of_scalar (strict : Bool) (depth : Nat) {c : Char} (hlist : c ≠ '[')
    (hobject : c ≠ '\x7b') (cs : List Char) :
    value? strict depth (c :: cs) = scalar? strict (c :: cs) := by
  cases depth with
  | zero => rfl
  | succ depth =>
    unfold value?
    split
    · next heq => exact absurd (List.cons.inj heq).1 hlist
    · next heq => exact absurd (List.cons.inj heq).1 hobject
    · rfl

/-- Written integers are read back, strictly and leniently, at any depth. -/
theorem value?_integer (strict : Bool) (depth : Nat) (n : Int64) (h : EndsNumeral rest) :
    value? strict depth (Decimal.ofInt n.toInt ++ rest) = some (integer n.toInt, rest) := by
  obtain ⟨d, ds, hof, hd, -⟩ := Decimal.exists_ofNat_cons n.toInt.natAbs
  have hnumber := number?_ofNat strict (decide (n.toInt < 0)) n rfl h
  rw [Decimal.ofInt_eq]
  by_cases hneg : n.toInt < 0
  · rw [decide_eq_true hneg] at hnumber
    rw [if_pos hneg]
    exact (value?_of_scalar strict depth (by decide) (by decide) _).trans hnumber
  · rw [decide_eq_false hneg, hof] at hnumber
    rw [if_neg hneg, hof]
    refine (value?_of_scalar strict depth (Decimal.ne_of_isDigit hd rfl)
      (Decimal.ne_of_isDigit hd rfl) _).trans ?_
    exact (scalar?_of_isDigit strict hd _).trans hnumber

/-! ### Names as keys -/

theorem escape_of_isNameLetter {c : Char} (h : isNameLetter c = true) : escape c = [c] := by
  have hcode := toNat_of_isNameLetter h
  unfold escape
  split
  case h_8 => exact if_neg (by omega)
  all_goals cases h

theorem toList_quoted {name : String} (h : ∀ c ∈ name.toList, isNameLetter c = true) :
    (quoted name).toList = '"' :: name.toList ++ ['"'] := by
  have hescape : name.toList.flatMap escape = name.toList := by
    rw [List.flatMap_congr fun c hc ↦ escape_of_isNameLetter (h c hc)]
    exact List.flatMap_singleton' _
  rw [quoted, hescape, String.toList_ofList]

theorem pieces?_of_letters {cs : List Char} (h : ∀ c ∈ cs, isNameLetter c = true)
    (rest : List Char) : pieces? (cs ++ '"' :: rest) = some (cs.map .char, rest) := by
  induction cs with
  | nil => rfl
  | cons c cs ih =>
    obtain ⟨hc, hcs⟩ := List.forall_mem_cons.mp h
    have hcode := toNat_of_isNameLetter hc
    have hplain : ¬ (c.toNat < 0x20 ∨ c = '\\') := by
      rintro (hlow | rfl)
      · omega
      · cases hc
    have hstep : pieces? (c :: (cs ++ '"' :: rest)) =
        (pieces? (cs ++ '"' :: rest)).map fun r ↦ (.char c :: r.1, r.2) := by
      rw [pieces?.eq_def]
      split
      · next heq => cases heq
      · next heq =>
        rw [(List.cons.inj heq).1] at hc
        cases hc
      · next heq =>
        rw [(List.cons.inj heq).1] at hc
        cases hc
      · next heq =>
        rw [(List.cons.inj heq).1] at hc
        cases hc
      · next heq =>
        obtain ⟨rfl, rfl⟩ := List.cons.inj heq
        exact if_neg hplain
    rw [List.cons_append, hstep, ih hcs]
    rfl

theorem joined?_map_char (cs : List Char) : joined? (cs.map .char) = some cs := by
  induction cs with
  | nil => simp [joined?]
  | cons c cs ih => simp [joined?, ih]

theorem string?_of_letters {name : String} (h : ∀ c ∈ name.toList, isNameLetter c = true)
    (strict : Bool) (rest : List Char) :
    string? strict (name.toList ++ '"' :: rest) = some (name, rest) := by
  unfold string?
  simp only [pieces?_of_letters h, Option.bind_eq_bind, Option.bind_some, joined?_map_char,
    String.ofList_toList]

/-! ### Objects of integers -/

theorem skipBlank_cons {c : Char} (h : isBlank c = false) (cs : List Char) :
    skipBlank (c :: cs) = c :: cs := by
  simp [skipBlank, h]

theorem text_ofInt (k : Int) : (Numeral.ofInt k).text = Decimal.ofInt k := by
  rw [Decimal.ofInt_eq]
  by_cases h : k < 0 <;> simp [Numeral.text, Numeral.ofInt, Numeral.partText, Numeral.powerText, h]

/-- A key and an integer, as they stand in an object. -/
def entryText (e : String × Int64) : List Char := keyText e.1 ++ Decimal.ofInt e.2.toInt

/-- Integers by name as the members of an object. -/
def members (t : IntegerTable) : List (String × Json) :=
  t.map fun e ↦ (e.1, integer e.2.toInt)

theorem compactText_integer (k : Int) : compactText (integer k) = Decimal.ofInt k :=
  text_ofInt k

theorem compactMembers_singleton (e : String × Int64) :
    compactMembers (members [e]) = entryText e := by
  change keyText e.1 ++ compactText (integer e.2.toInt) = _
  rw [compactText_integer]
  rfl

theorem compactMembers_cons_cons (e e' : String × Int64) (t : IntegerTable) :
    compactMembers (members (e :: e' :: t)) =
      entryText e ++ ',' :: compactMembers (members (e' :: t)) := by
  change keyText e.1 ++ compactText (integer e.2.toInt) ++ ',' :: _ = _
  rw [compactText_integer]
  rfl

variable {e : String × Int64} {t : IntegerTable}

theorem entryText_eq (h : ∀ c ∈ e.1.toList, isNameLetter c = true) (rest : List Char) :
    entryText e ++ rest =
      '"' :: (e.1.toList ++ '"' :: ':' :: (Decimal.ofInt e.2.toInt ++ rest)) := by
  rw [entryText, keyText, toList_quoted h]
  simp

theorem member_entryText (strict strictKeys : Bool) (depth : Nat)
    (hname : ∀ c ∈ e.1.toList, isNameLetter c = true) (h : EndsNumeral rest) :
    member (value? strict depth) strictKeys (entryText e ++ rest) =
      some ((e.1, integer e.2.toInt), rest) := by
  obtain ⟨d, ds, hof, hd, -⟩ := Decimal.exists_ofInt_cons e.2.toInt
  have hblank : isBlank d = false := by
    have hne {c : Char} (hc : c.isDigit = false) (hminus : c ≠ '-') : d ≠ c :=
      Decimal.ne_of_first hd hc hminus
    simp only [isBlank, Bool.or_eq_false_iff, beq_eq_false_iff_ne]
    exact ⟨⟨⟨hne rfl (by decide), hne rfl (by decide)⟩, hne rfl (by decide)⟩, hne rfl (by decide)⟩
  have hskip : skipBlank (Decimal.ofInt e.2.toInt ++ rest) = Decimal.ofInt e.2.toInt ++ rest := by
    rw [hof]
    exact skipBlank_cons hblank _
  have hcolon := skipBlank_cons (c := ':') rfl (Decimal.ofInt e.2.toInt ++ rest)
  simp only [entryText_eq hname, member, string?_of_letters hname, hcolon, hskip,
    value?_integer strict depth e.2 h, Option.map_some]

/-- The members of an object are read back up to its closing brace. -/
theorem itemsUpTo_members (strict strictKeys : Bool) (depth fuel : Nat) (rest : List Char)
    (hnames : ∀ e' ∈ e :: t, ∀ c ∈ e'.1.toList, isNameLetter c = true)
    (hfuel : t.length < fuel) :
    itemsUpTo (member (value? strict depth) strictKeys) '\x7d' fuel
      (compactMembers (members (e :: t)) ++ '\x7d' :: rest) = some (members (e :: t), rest) := by
  induction t generalizing e fuel with
  | nil =>
    obtain ⟨fuel, rfl⟩ := Nat.exists_eq_succ_of_ne_zero (Nat.ne_of_gt hfuel)
    obtain ⟨hname, -⟩ := List.forall_mem_cons.mp hnames
    have hends : EndsNumeral ('\x7d' :: rest) := by
      intro c hc
      cases hc
      decide
    have hmember := member_entryText strict strictKeys depth hname hends
    rw [compactMembers_singleton]
    unfold itemsUpTo
    rw [entryText_eq hname, skipBlank_cons (by rfl), ← entryText_eq hname, hmember]
    dsimp only
    rw [skipBlank_cons (by rfl)]
    rfl
  | cons e' t ih =>
    obtain ⟨fuel, rfl⟩ := Nat.exists_eq_succ_of_ne_zero (Nat.ne_of_gt (Nat.zero_lt_of_lt hfuel))
    obtain ⟨hname, hnames⟩ := List.forall_mem_cons.mp hnames
    have hends (more : List Char) : EndsNumeral (',' :: more) := by
      intro c hc
      cases hc
      decide
    have hmember := member_entryText strict strictKeys depth hname
      (hends (compactMembers (members (e' :: t)) ++ '\x7d' :: rest))
    rw [compactMembers_cons_cons, List.append_assoc, List.cons_append]
    unfold itemsUpTo
    rw [entryText_eq hname, skipBlank_cons (by rfl), ← entryText_eq hname, hmember]
    dsimp only
    rw [skipBlank_cons (by rfl)]
    simp only [ih fuel hnames (by simpa using hfuel), Option.map_some]
    rfl

theorem exists_compactMembers_cons (hname : ∀ c ∈ e.1.toList, isNameLetter c = true)
    (t : IntegerTable) : ∃ more, compactMembers (members (e :: t)) = '"' :: more := by
  cases t with
  | nil =>
    rw [compactMembers_singleton, ← List.append_nil (entryText e), entryText_eq hname]
    exact ⟨_, rfl⟩
  | cons e' t =>
    rw [compactMembers_cons_cons, entryText_eq hname]
    exact ⟨_, rfl⟩

theorem length_le_compactMembers (e : String × Int64) (t : IntegerTable) :
    t.length ≤ (compactMembers (members (e :: t))).length := by
  induction t generalizing e with
  | nil => exact Nat.zero_le _
  | cons e' t ih =>
    have hrest := ih e'
    rw [compactMembers_cons_cons, List.length_append, List.length_cons, List.length_cons]
    omega

theorem enclosed_members (strict strictKeys : Bool) (depth : Nat) (rest : List Char)
    (hnames : ∀ e ∈ t, ∀ c ∈ e.1.toList, isNameLetter c = true) :
    enclosed (member (value? strict depth) strictKeys) '\x7d'
      (compactMembers (members t) ++ '\x7d' :: rest) = some (members t, rest) := by
  cases t with
  | nil =>
    have hskip := skipBlank_cons (c := '\x7d') rfl rest
    change enclosed _ _ ('\x7d' :: rest) = some ([], rest)
    rw [enclosed, hskip]
    rfl
  | cons e t =>
    obtain ⟨more, hmore⟩ := exists_compactMembers_cons (List.forall_mem_cons.mp hnames).1 t
    have hlength := length_le_compactMembers e t
    have hitems := itemsUpTo_members strict strictKeys depth
      ((compactMembers (members (e :: t)) ++ '\x7d' :: rest).length + 1) rest hnames
      (by rw [List.length_append]; omega)
    have hskip := skipBlank_cons (c := '"') rfl (more ++ '\x7d' :: rest)
    rw [hmore, List.cons_append] at hitems ⊢
    rw [enclosed, hskip]
    exact (if_neg (by decide)).trans hitems

/-- The reader gets the object back that was written. -/
theorem parse?_compactText (hnames : ∀ e ∈ t, ∀ c ∈ e.1.toList, isNameLetter c = true) :
    parse? (compactText (.object (members t))) = some (.object (members t)) := by
  have henclosed := enclosed_members true true 126 [] hnames
  have hvalue : value? true maxDepth ('\x7b' :: (compactMembers (members t) ++ ['\x7d'])) =
      some (.object (members t), []) := by
    change (enclosed (member (value? true 126) true) '\x7d' _).map _ = _
    rw [henclosed]
    rfl
  have hskip := skipBlank_cons (c := '\x7b') rfl (compactMembers (members t) ++ ['\x7d'])
  change parse? ('\x7b' :: (compactMembers (members t) ++ ['\x7d'])) = _
  rw [parse?, whole?, hskip, hvalue]
  rfl

/-- What a codec does with integers: the reader gets the object back that was written. -/
structure Codec.ReadsIntegers (c : Codec) : Prop where
  read?_write : ∀ t : IntegerTable, t.Named →
    c.read? (c.write (.object (members t))) = some (.object (members t))

theorem Codec.standard_readsIntegers : standard.ReadsIntegers where
  read?_write := by
    intro t h
    have henclosed := enclosed_members false true
      ('\x7b' :: (compactMembers (members t) ++ ['\x7d'])).length [] fun e he ↦ (h.letters e he).2
    have hdata : data? ('\x7b' :: (compactMembers (members t) ++ ['\x7d'])) =
        some (.object (members t), []) := by
      change (enclosed (member (value? false _) true) '\x7d' _).map _ = _
      rw [henclosed]
      rfl
    have hskip := skipBlank_cons (c := '\x7b') rfl (compactMembers (members t) ++ ['\x7d'])
    change whole? data? ('\x7b' :: (compactMembers (members t) ++ ['\x7d'])) = _
    rw [whole?, hskip, hdata]
    rfl

end Json

namespace IntegerTable

variable {t : IntegerTable}

theorem json_document? (h : t.Named) :
    Json.document? (Json.compactText (.object (Json.members t))) = some t.document := by
  have hdata : (Json.members t).mapM (fun m ↦ m.2.datum?.map fun d ↦ (m.1, d)) =
      some t.document := by
    have hdatum (n : Int64) : (Json.integer n.toInt).datum? = some (.integer n) := by
      change (Json.Numeral.ofInt n.toInt).datum? = _
      rw [Json.Numeral.datum?, Json.int64?_ofInt]
    clear h
    induction t with
    | nil => rfl
    | cons e t ih =>
      change ((e.1, Json.integer e.2.toInt) :: Json.members t).mapM _ = _
      rw [List.mapM_cons, ih]
      simp only [hdatum]
      rfl
  unfold Json.document?
  rw [Json.parse?_compactText fun e he ↦ (h.letters e he).2]
  dsimp only
  rw [hdata]
  refine congrArg some (Document.ofMembers_of_nodup ?_)
  rw [map_fst_document]
  exact h.nodup

end IntegerTable

namespace Limits

/-- Limits as data are an object of integers. -/
theorem json_eq (l : Limits) :
    l.json = .object (Json.members [(sizeName, l.size), (ageName, l.ageMillis)]) := rfl

theorem ofJson?_json (l : Limits) : ofJson? l.json = some l := by
  have hinteger (n : Int64) : integer? (Json.integer n.toInt) = some n := Json.int64?_ofInt n
  have hsize (fallback : Int64) :
      member? (Json.members [(sizeName, l.size), (ageName, l.ageMillis)]) sizeName fallback =
        some l.size := hinteger l.size
  have hage (fallback : Int64) :
      member? (Json.members [(sizeName, l.size), (ageName, l.ageMillis)]) ageName fallback =
        some l.ageMillis := hinteger l.ageMillis
  rw [json_eq]
  unfold ofJson? ofMembers?
  dsimp only
  rw [hsize, hage]
  rfl

theorem letters_of_mem {name : String} (h : name ∈ [sizeName, ageName]) :
    name.toList ≠ [] ∧ ∀ c ∈ name.toList, isNameLetter c = true := by
  have hsize : sizeName.toList.all isNameLetter = true := by decide
  have hage : ageName.toList.all isNameLetter = true := by decide
  rcases List.mem_pair.mp h with rfl | rfl
  · exact ⟨by decide, List.all_eq_true.mp hsize⟩
  · exact ⟨by decide, List.all_eq_true.mp hage⟩

end Limits

end Bundling
