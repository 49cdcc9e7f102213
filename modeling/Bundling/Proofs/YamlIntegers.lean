import Bundling.Document.Yaml
import Bundling.Proofs.IntegerTables
import Mathlib.Data.List.Nodup

/-!
Integers by name as YAML text, a line for each. The lines are one document, a block table whose keys
all stand at the margin; the reader takes no name for a word and gets from each line exactly the
integer that was written.
-/

set_option autoImplicit false
set_option relaxedAutoImplicit false

namespace Bundling

namespace Yaml

open IntegerTable

variable {cs rest line : List Char} {n : Int64} {c : Char}

/-! ### Plain text -/

/-- The characters that plain text goes on with whatever comes next. -/
def isOrdinary (c : Char) : Bool := c != '\n' && c != '#' && c != ':' && !isBlank c

theorem isOrdinary_of_isNameLetter (h : isNameLetter c = true) : isOrdinary c = true := by
  have hne {d : Char} (hd : isNameLetter d = false) : c ≠ d := ne_of_isNameLetter h hd
  simp [isOrdinary, isBlank, hne (d := '\n') rfl, hne (d := '#') rfl, hne (d := ':') rfl,
    hne (d := ' ') rfl, hne (d := '\t') rfl]

theorem isOrdinary_of_first (h : c = '-' ∨ c.isDigit = true) : isOrdinary c = true := by
  have hne {d : Char} (hd : d.isDigit = false) (hminus : d ≠ '-') : c ≠ d :=
    Decimal.ne_of_first h hd hminus
  simp [isOrdinary, isBlank, hne (d := '\n') rfl (by decide), hne (d := '#') rfl (by decide),
    hne (d := ':') rfl (by decide), hne (d := ' ') rfl (by decide), hne (d := '\t') rfl (by decide)]

theorem isBlank_of_isOrdinary (h : isOrdinary c = true) : isBlank c = false := by
  simp only [isOrdinary, Bool.and_eq_true, Bool.not_eq_true'] at h
  exact h.2

/-- Plain text goes on over ordinary characters up to where it ends. -/
theorem plainLine_append (hcs : ∀ c ∈ cs, isOrdinary c = true)
    (hrest : ∀ b, plainLine false b rest = ([], rest)) (b : Bool) :
    plainLine false b (cs ++ rest) = (cs, rest) := by
  induction cs generalizing b with
  | nil => exact hrest b
  | cons c cs ih =>
    obtain ⟨hc, hcs⟩ := List.forall_mem_cons.mp hcs
    simp only [isOrdinary, Bool.and_eq_true, bne_iff_ne, Bool.not_eq_true'] at hc
    obtain ⟨⟨⟨hbreak, hcomment⟩, hcolon⟩, hblank⟩ := hc
    simp [plainLine, ih hcs, hbreak, hcomment, hcolon, hblank]

theorem integer?_ofInt (n : Int64) : integer? (Decimal.ofInt n.toInt) = some n := by
  have hfirst {c : Char} {more : List Char} (hc : c.isDigit = false) (hminus : c ≠ '-') :
      Decimal.ofInt n.toInt ≠ c :: more := by
    rw [← List.append_nil (Decimal.ofInt _)]
    exact Decimal.ofInt_append_ne_cons hc hminus
  -- no letter for a base comes second
  have hsecond {c d : Char} {more : List Char} (hc : c.isDigit = false) :
      Decimal.ofInt n.toInt ≠ d :: c :: more := by
    rw [← List.append_nil (Decimal.ofInt _)]
    exact Decimal.ofInt_append_ne_cons_cons hc (by simp)
  unfold integer?
  split
  · next heq => exact absurd heq (hsecond rfl)
  · next heq => exact absurd heq (hsecond rfl)
  · next heq => exact absurd heq (hfirst rfl (by decide))
  · exact Decimal.toInt64?_ofInt n

/-- A written integer stands for itself. -/
theorem resolve?_ofInt (n : Int64) : resolve? (Decimal.ofInt n.toInt) = some (.integer n) := by
  have hne {word : String} (h : (word.toList.head?.all fun c ↦ !c.isDigit && c != '-') = true) :
      String.ofList (Decimal.ofInt n.toInt) ≠ word := Decimal.text_ne h n.toInt
  have hempty : ¬ (String.ofList (Decimal.ofInt n.toInt) = "" ∨
      String.ofList (Decimal.ofInt n.toInt) = "~" ∨
      String.ofList (Decimal.ofInt n.toInt) = "null") := by
    rintro (h | h | h)
    · have hnil : Decimal.ofInt n.toInt = [] := by simpa using h
      obtain ⟨d, ds, hof, -, -⟩ := Decimal.exists_ofInt_cons n.toInt
      rw [hof] at hnil
      cases hnil
    · exact hne (by decide) h
    · exact hne (by decide) h
  unfold resolve?
  rw [if_neg hempty, if_neg (hne (by decide)), if_neg (hne (by decide)),
    integer?_ofInt]

theorem integer?_of_letters (hne : cs ≠ []) (h : ∀ c ∈ cs, isNameLetter c = true) :
    integer? cs = none := by
  obtain ⟨c, cs, rfl⟩ := List.exists_cons_of_ne_nil hne
  obtain ⟨hc, -⟩ := List.forall_mem_cons.mp h
  have hfirst {d : Char} {more : List Char} (hd : isNameLetter d = false)
      (heq : c :: cs = d :: more) : False := ne_of_isNameLetter hc hd (List.cons.inj heq).1
  have hnumber : Decimal.toNat? (c :: cs) = none := by
    have hdigit : c.isDigit = false := isDigit_of_isNameLetter hc
    simp [Decimal.toNat?, hdigit]
  unfold integer?
  split
  · next heq => exact (hfirst rfl heq).elim
  · next heq => exact (hfirst rfl heq).elim
  · next heq => exact (hfirst rfl heq).elim
  · unfold Decimal.toInt64? Decimal.toInt?
    split
    · next heq => exact (hfirst rfl heq).elim
    · next heq => exact (hfirst rfl heq).elim
    · rw [hnumber]
      rfl

theorem not_isUnusableReal {s : String} (h : ∀ c ∈ s.toList, isNameLetter c = true) :
    isUnusableReal s = false := by
  have hpoint : ∀ word ∈ [".inf", ".Inf", ".INF", "+.inf", "+.Inf", "+.INF", "-.inf", "-.Inf",
      "-.INF", ".nan", ".NAN"], '.' ∈ word.toList := by decide
  rw [Bool.eq_false_iff]
  intro hword
  exact ne_of_isNameLetter (h '.' (hpoint s (List.contains_iff_mem.mp hword))) rfl rfl

/-- A name stands for itself. -/
theorem resolve?_name {name : String} (hne : name.toList ≠ [])
    (hname : ∀ c ∈ name.toList, isNameLetter c = true)
    (hword : name ∉ ["null", "true", "false", "NaN"]) :
    resolve? name.toList = some (.text name) := by
  simp only [List.mem_cons, List.not_mem_nil, or_false, not_or] at hword
  obtain ⟨hnull, htrue, hfalse, hnan⟩ := hword
  have hempty : ¬ (name = "" ∨ name = "~" ∨ name = "null") := by
    rintro (rfl | rfl | rfl)
    · exact hne rfl
    · exact absurd (hname '~' List.mem_cons_self) (by decide)
    · exact hnull rfl
  have hdigits : name.toList.any Char.isDigit = false := by
    refine Bool.eq_false_iff.mpr fun h ↦ ?_
    obtain ⟨c, hc, hdigit⟩ := List.any_eq_true.mp h
    rw [isDigit_of_isNameLetter (hname c hc)] at hdigit
    cases hdigit
  unfold resolve?
  simp only [String.ofList_toList]
  rw [if_neg hempty, if_neg htrue, if_neg hfalse, integer?_of_letters hne hname,
    not_isUnusableReal hname, if_neg Bool.false_ne_true, if_neg hnan, hdigits,
    if_neg Bool.false_ne_true]

/-! ### Keys and integers -/

theorem skipBlank_cons (h : isBlank c = false) (cs : List Char) :
    skipBlank (c :: cs) = c :: cs := by
  simp [skipBlank, h]

theorem skipBlank_ofInt (k : Int) (rest : List Char) :
    skipBlank (Decimal.ofInt k ++ rest) = Decimal.ofInt k ++ rest := by
  obtain ⟨d, ds, hof, hd, -⟩ := Decimal.exists_ofInt_cons k
  rw [hof]
  exact skipBlank_cons (isBlank_of_isOrdinary (isOrdinary_of_first hd)) _

/-- The characters other than blanks that plain text does not start with, at least not always. -/
def plainMarks : List Char :=
  ['-', '?', ':', '\n', ',', '[', ']', '\x7b', '\x7d', '#', '&', '*', '!', '|', '>', '\'', '"', '%',
    '@', '\x60']

theorem startsPlain_cons (hmark : c ∉ plainMarks) (hblank : isBlank c = false) (cs : List Char) :
    startsPlain false (c :: cs) = true := by
  simp only [plainMarks, List.mem_cons, List.not_mem_nil, or_false, not_or] at hmark
  simp [startsPlain, isFlowMark, hmark, hblank]

theorem startsPlain_of_isNameLetter (h : isNameLetter c = true) (cs : List Char) :
    startsPlain false (c :: cs) = true := by
  have hblank : isBlank c = false := isBlank_of_isOrdinary (isOrdinary_of_isNameLetter h)
  have hother : (plainMarks.all fun d ↦ !isNameLetter d) = true := by decide
  refine startsPlain_cons (fun hmem ↦ ?_) hblank cs
  have hc := List.all_eq_true.mp hother c hmem
  rw [h] at hc
  cases hc

theorem atGap_ofNat (m : Nat) (rest : List Char) : atGap (Decimal.ofNat m ++ rest) = false := by
  obtain ⟨d, ds, hof, hd, -⟩ := Decimal.exists_ofNat_cons m
  have hblank : isBlank d = false := isBlank_of_isOrdinary (isOrdinary_of_first (.inr hd))
  have hbreak : d ≠ '\n' := Decimal.ne_of_isDigit hd rfl
  simp [hof, atGap, hblank, hbreak]

/-- A minus sign with a digit behind it starts plain text, and so does a digit. -/
theorem startsPlain_ofInt (k : Int) (rest : List Char) :
    startsPlain false (Decimal.ofInt k ++ rest) = true := by
  rw [Decimal.ofInt_eq]
  by_cases hneg : k < 0
  · rw [if_pos hneg, List.singleton_append, List.cons_append]
    simp [startsPlain, atGap_ofNat]
  · obtain ⟨d, ds, hof, hd, -⟩ := Decimal.exists_ofNat_cons k.natAbs
    rw [if_neg hneg, List.nil_append, hof]
    have hblank : isBlank d = false := isBlank_of_isOrdinary (isOrdinary_of_first (.inr hd))
    have hother : (plainMarks.all fun c ↦ !c.isDigit) = true := by decide
    refine startsPlain_cons (fun hmem ↦ ?_) hblank _
    have hc := List.all_eq_true.mp hother d hmem
    rw [hd] at hc
    cases hc

theorem isEntry_ofInt (k : Int) (rest : List Char) : isEntry (Decimal.ofInt k ++ rest) = false := by
  rw [Decimal.ofInt_eq]
  by_cases hneg : k < 0
  · rw [if_pos hneg]
    exact atGap_ofNat _ _
  · obtain ⟨d, ds, hof, hd, -⟩ := Decimal.exists_ofNat_cons k.natAbs
    rw [if_neg hneg, List.nil_append, hof]
    unfold isEntry
    split
    · next heq => exact absurd (List.cons.inj heq).1 (Decimal.ne_of_isDigit hd rfl)
    · rfl

theorem takeWhile_line (hline : '\n' ∉ line) (rest : List Char) :
    (line ++ '\n' :: rest).takeWhile (· != '\n') = line := by
  refine (Reader.takeWhile_append (fun c hc ↦ ?_) fun c hc ↦ ?_).1
  · exact bne_iff_ne.mpr fun h ↦ hline (h ▸ hc)
  · cases hc
    rfl

/-- What stands between a name and its integer. -/
def mark : List Char := [':', ' ']

/-- The line of an entry, without its end. -/
def entryBody (e : String × Int64) : List Char := e.1.toList ++ mark ++ Decimal.ofInt e.2.toInt

/-- A line holds no characters but those of its name, its integer and the mark between them. -/
theorem notMem_entryBody {e : String × Int64} (hname : ∀ c ∈ e.1.toList, isNameLetter c = true)
    (hletter : isNameLetter c = false) (hdigit : c.isDigit = false) (hmark : c ∉ ['-', ':', ' ']) :
    c ∉ entryBody e := by
  simp only [List.mem_cons, List.not_mem_nil, or_false, not_or] at hmark
  obtain ⟨hminus, hcolon, hspace⟩ := hmark
  simp only [entryBody, mark, List.mem_append, List.mem_cons, List.not_mem_nil, or_false]
  rintro ((h | rfl | rfl) | h)
  · exact ne_of_isNameLetter (hname c h) hletter rfl
  · exact hcolon rfl
  · exact hspace rfl
  · exact Decimal.ne_of_first (Decimal.forall_mem_ofInt _ c h) hdigit hminus rfl

theorem exists_entryBody_cons {e : String × Int64} (hne : e.1.toList ≠ [])
    (hname : ∀ c ∈ e.1.toList, isNameLetter c = true) :
    ∃ c cs, entryBody e = c :: cs ∧ isNameLetter c = true := by
  obtain ⟨c, cs, hcs⟩ := List.exists_cons_of_ne_nil hne
  rw [entryBody, hcs]
  exact ⟨c, _, rfl, hname c (hcs ▸ List.mem_cons_self)⟩

theorem entryBody_append (e : String × Int64) (rest : List Char) : entryBody e ++ rest =
    e.1.toList ++ ':' :: ' ' :: (Decimal.ofInt e.2.toInt ++ rest) := by
  simp [entryBody, mark]

/-- The key of a line is its name. -/
theorem key?_entryBody {e : String × Int64} (hne : e.1.toList ≠ [])
    (hname : ∀ c ∈ e.1.toList, isNameLetter c = true)
    (hword : e.1 ∉ ["null", "true", "false", "NaN"]) (rest : List Char) :
    key? (entryBody e ++ '\n' :: rest) =
      some (.text e.1, ' ' :: (Decimal.ofInt e.2.toInt ++ '\n' :: rest)) := by
  have hline := takeWhile_line (notMem_entryBody hname rfl rfl (by decide)) rest
  have hplain : plainLine false false (entryBody e) =
      (e.1.toList, ':' :: ' ' :: Decimal.ofInt e.2.toInt) := by
    have happend := entryBody_append e []
    rw [List.append_nil, List.append_nil] at happend
    rw [happend]
    exact plainLine_append (fun c hc ↦ isOrdinary_of_isNameLetter (hname c hc)) (fun b ↦ rfl) false
  have hdrop : (entryBody e ++ '\n' :: rest).drop (entryBody e).length = '\n' :: rest :=
    List.drop_left
  have hresolve := resolve?_name hne hname hword
  obtain ⟨c, cs, hbody, hc⟩ := exists_entryBody_cons hne hname
  have hstarts : startsPlain false (entryBody e) = true := by
    rw [hbody]
    exact startsPlain_of_isNameLetter hc _
  have hquote {d : Char} {more : List Char} (hd : isNameLetter d = false)
      (heq : entryBody e = d :: more) : False := by
    rw [hbody] at heq
    exact ne_of_isNameLetter hc hd (List.cons.inj heq).1
  unfold key?
  rw [hline]
  dsimp only
  split
  · next heq => exact (hquote rfl heq).elim
  · next heq => exact (hquote rfl heq).elim
  · rw [if_pos hstarts, hplain, hdrop]
    change (resolve? e.1.toList).bind _ = _
    rw [hresolve]
    rfl

/-- An integer does not go on over the next line if that starts at the margin. -/
theorem plainLines?_ofInt (parent fuel : Nat) (hrest : ∀ c ∈ rest.head?, isNameLetter c = true) :
    plainLines? parent (fuel + 1) (Decimal.ofInt n.toInt ++ '\n' :: rest) =
      some (Decimal.ofInt n.toInt, '\n' :: rest) := by
  have hplain : plainLine false false (Decimal.ofInt n.toInt ++ '\n' :: rest) =
      (Decimal.ofInt n.toInt, '\n' :: rest) :=
    plainLine_append (fun c hc ↦ isOrdinary_of_first (Decimal.forall_mem_ofInt _ c hc))
      (fun b ↦ rfl) false
  have hgap : (('\n' :: rest).takeWhile fun c ↦ isBlank c || c == '\n') = ['\n'] := by
    have hbreak : ∀ c ∈ ['\n'], (isBlank c || c == '\n') = true := by simp
    refine (Reader.takeWhile_append hbreak fun c hc ↦ ?_).1
    have hne {d : Char} (hd : isNameLetter d = false) : c ≠ d := ne_of_isNameLetter (hrest c hc) hd
    simp [isBlank, hne (d := '\n') rfl, hne (d := ' ') rfl, hne (d := '\t') rfl]
  unfold plainLines?
  rw [hplain]
  dsimp only [skipBlank]
  rw [hgap]
  exact if_neg fun h ↦ absurd h.1 (by simp)

theorem inner?_ofInt (node : Int → Nat → Bool → Anchors → List Char → Option Found)
    (parent column : Nat) (listToo : Bool) (anchors : Anchors) (k : Int) (rest : List Char) :
    inner? node parent column false listToo anchors (' ' :: (Decimal.ofInt k ++ rest)) =
      node parent (column + 1) false anchors (Decimal.ofInt k ++ rest) := by
  obtain ⟨d, ds, hof, hd, -⟩ := Decimal.exists_ofInt_cons k
  have hskip : skipBlank (' ' :: (Decimal.ofInt k ++ rest)) = Decimal.ofInt k ++ rest :=
    skipBlank_ofInt k rest
  have hend : lineEnd? (' ' :: (Decimal.ofInt k ++ rest)) = none := by
    unfold lineEnd?
    rw [hskip]
    split
    · next heq =>
      rw [hof] at heq
      cases heq
    · next heq => exact absurd heq (Decimal.ofInt_append_ne_cons rfl (by decide))
    · next heq => exact absurd heq (Decimal.ofInt_append_ne_cons rfl (by decide))
    · rfl
  have hblanks : (' ' :: (Decimal.ofInt k ++ rest)).takeWhile isBlank = [' '] := by
    have hspace : ∀ c ∈ [' '], isBlank c = true := by simp [isBlank]
    refine (Reader.takeWhile_append hspace fun c hc ↦ ?_).1
    rw [hof] at hc
    rw [← Option.some.inj hc]
    exact isBlank_of_isOrdinary (isOrdinary_of_first hd)
  unfold inner?
  rw [hend]
  dsimp only
  rw [hskip, hblanks]
  rfl

/-- An integer behind a key is a node up to the end of its line. -/
theorem node?_ofInt (fuel parent column : Nat) (anchors : Anchors)
    (hrest : ∀ c ∈ rest.head?, isNameLetter c = true) :
    node? (fuel + 1) "" parent column false anchors (Decimal.ofInt n.toInt ++ '\n' :: rest) =
      some ⟨⟨.integer n, []⟩, '\n' :: rest, anchors⟩ := by
  obtain ⟨d, ds, hof, hd, -⟩ := Decimal.exists_ofInt_cons n.toInt
  have hentry := isEntry_ofInt n.toInt ('\n' :: rest)
  have hstarts := startsPlain_ofInt n.toInt ('\n' :: rest)
  have hplain := plainLines?_ofInt (n := n) parent
    (Decimal.ofInt n.toInt ++ '\n' :: rest).length hrest
  have hresolve : resolveAs? "" (Decimal.ofInt n.toInt) = some (.integer n) := resolve?_ofInt n
  unfold node?
  rw [hentry]
  simp only [Bool.false_eq_true, if_false, Bool.false_and]
  split
  · next heq =>
    rw [hof] at heq
    cases heq
  · next heq => exact absurd heq (Decimal.ofInt_append_ne_cons rfl (by decide))
  · next heq => exact absurd heq (Decimal.ofInt_append_ne_cons rfl (by decide))
  · next c more _ _ heq =>
    have hmark : ¬ (c = '&' ∨ c = '!') := by
      rintro (rfl | rfl)
      · exact Decimal.ofInt_append_ne_cons rfl (by decide) heq
      · exact Decimal.ofInt_append_ne_cons rfl (by decide) heq
    rw [if_neg hmark, if_pos hstarts, hplain]
    change (resolveAs? "" (Decimal.ofInt n.toInt)).bind _ = _
    rw [hresolve]
    rfl

/-! ### Tables -/

variable {e : String × Int64} {t : IntegerTable}

theorem nextContent_of_head (h : ∀ c ∈ cs.head?, isNameLetter c = true) :
    nextContent 0 false cs = (0, cs) := by
  cases cs with
  | nil => rfl
  | cons c cs =>
    have hne {d : Char} (hd : isNameLetter d = false) : c ≠ d := ne_of_isNameLetter (h c rfl) hd
    simp [nextContent, hne (d := '\n') rfl, hne (d := ' ') rfl, hne (d := '#') rfl,
      hne (d := '\t') rfl]

theorem lines_cons_eq (e : String × Int64) (t : IntegerTable) :
    lines mark (e :: t) = entryBody e ++ '\n' :: lines mark t := by
  rw [lines_cons, entryLine, entryBody, List.append_assoc _ ['\n'], List.singleton_append]

theorem key?_lines (h : Named (e :: t)) : key? (lines mark (e :: t)) =
    some (.text e.1, ' ' :: (Decimal.ofInt e.2.toInt ++ '\n' :: lines mark t)) := by
  obtain ⟨hne, hname⟩ := h.letters e List.mem_cons_self
  rw [lines_cons_eq]
  exact key?_entryBody hne hname (h.words e List.mem_cons_self) _

theorem isMarkedKey_lines (h : Named (e :: t)) : isMarkedKey (lines mark (e :: t)) = false := by
  obtain ⟨hne, hname⟩ := h.letters e List.mem_cons_self
  obtain ⟨c, more, hline, hc⟩ := exists_entryLine_cons hne hname mark
  rw [lines_cons, hline]
  unfold isMarkedKey
  split
  · next heq => exact absurd (List.cons.inj heq).1 (ne_of_isNameLetter hc rfl)
  · rfl

/-- An entry as a member of a block table. -/
def member (e : String × Int64) : Datum × Datum := (.text e.1, .integer e.2)

/-- One line of a block table at the margin: its entry is the next member, and the table ends with
the last line. -/
theorem blockMembers?_cons (depth fuel : Nat) (anchors : Anchors) (members : List (Datum × Datum))
    (h : Named (e :: t)) :
    blockMembers? (node? (depth + 1) "") 0 (fuel + 1) anchors members (lines mark (e :: t)) =
      if t = [] then some (members ++ [member e], ['\n'], anchors)
      else blockMembers? (node? (depth + 1) "") 0 fuel anchors (members ++ [member e])
        (lines mark t) := by
  have hkey := key?_lines h
  have hmarked := isMarkedKey_lines h
  have hrest := h.tail.head?_lines mark
  have hnode (column : Nat) := node?_ofInt (n := e.2) depth 0 column anchors hrest
  have hnext : nextContent 0 true ('\n' :: lines mark t) = (0, lines mark t) :=
    nextContent_of_head hrest
  conv_lhs => unfold blockMembers?
  simp only [blockMember?, hmarked, Bool.false_eq_true, if_false, hkey, Option.bind_eq_bind,
    Option.bind_some, inner?_ofInt, hnode, hnext]
  cases t with
  | nil => rfl
  | cons e' t =>
    obtain ⟨hne, hname⟩ := h.letters e' (List.mem_cons_of_mem _ List.mem_cons_self)
    obtain ⟨c, more, hline, -⟩ := exists_entryLine_cons hne hname mark
    rw [if_neg (List.cons_ne_nil e' t), lines_cons, hline]
    rfl

/-- The members of a block table at the margin are the entries line by line. -/
theorem blockMembers?_lines (depth fuel : Nat) (anchors : Anchors) (members : List (Datum × Datum))
    (h : Named (e :: t)) (hfuel : t.length < fuel) :
    blockMembers? (node? (depth + 1) "") 0 fuel anchors members (lines mark (e :: t)) =
      some (members ++ (e :: t).map member, ['\n'], anchors) := by
  induction t generalizing e members fuel with
  | nil =>
    obtain ⟨fuel, rfl⟩ := Nat.exists_eq_succ_of_ne_zero (Nat.ne_of_gt hfuel)
    exact blockMembers?_cons depth fuel anchors members h
  | cons e' t ih =>
    obtain ⟨fuel, rfl⟩ := Nat.exists_eq_succ_of_ne_zero (Nat.ne_of_gt (Nat.zero_lt_of_lt hfuel))
    have hrest := ih fuel (members ++ [member e]) h.tail (by simpa using hfuel)
    rw [blockMembers?_cons depth fuel anchors members h, if_neg (List.cons_ne_nil e' t), hrest,
      List.append_assoc]
    rfl

theorem nodup_map_member (h : (t.map Prod.fst).Nodup) :
    ((t.map member).map Prod.fst).Nodup := by
  have hkeys : (t.map member).map Prod.fst = (t.map Prod.fst).map Datum.text := by
    simp [member]
  have hinjective : Function.Injective Datum.text := fun _ _ heq ↦ Datum.text.inj heq
  rw [hkeys]
  exact h.map hinjective

/-- The lines of a table are its one node. -/
theorem root?_lines (h : Named (e :: t)) :
    root? (lines mark (e :: t)) = some ⟨.table, (e :: t).map member⟩ := by
  obtain ⟨hne, hname⟩ := h.letters e List.mem_cons_self
  obtain ⟨c, more, hline, hc⟩ := exists_entryLine_cons hne hname mark
  have hlength := length_le_lines mark (e :: t)
  obtain ⟨depth, hdepth⟩ : ∃ depth, (lines mark (e :: t)).length = depth + 1 :=
    Nat.exists_eq_succ_of_ne_zero (Nat.ne_of_gt (Nat.lt_of_lt_of_le (Nat.zero_lt_succ _) hlength))
  have hkey := key?_lines h
  have hmembers := blockMembers?_lines depth ((lines mark (e :: t)).length + 1) [] [] h
    (by rw [List.length_cons] at hlength; omega)
  have htable : tableOf? ((e :: t).map member) = some ⟨.table, (e :: t).map member⟩ :=
    if_pos (nodup_map_member h.nodup)
  have hcons : lines mark (e :: t) = c :: (more ++ lines mark t) := by
    rw [lines_cons, hline]
    rfl
  have hentry : isEntry (lines mark (e :: t)) = false := by
    rw [hcons]
    unfold isEntry
    split
    · next heq => exact absurd (List.cons.inj heq).1 (ne_of_isNameLetter hc rfl)
    · rfl
  have hnode : node? ((lines mark (e :: t)).length + 1) "" (-1) 0 true [] (lines mark (e :: t)) =
      some ⟨⟨.table, (e :: t).map member⟩, ['\n'], []⟩ := by
    unfold node?
    rw [hentry, hkey]
    simp only [Bool.false_eq_true, if_false, Bool.true_and, Option.isSome_some, Bool.or_true,
      if_true]
    rw [hdepth] at hmembers ⊢
    rw [hmembers, List.nil_append]
    change (tableOf? ((e :: t).map member)).bind _ = _
    rw [htable]
    rfl
  have hnext : nextContent 0 false (lines mark (e :: t)) = (0, lines mark (e :: t)) :=
    nextContent_of_head (h.head?_lines mark)
  unfold root?
  rw [hnext]
  rw [hcons] at hnode ⊢
  change (node? ((c :: (more ++ lines mark t)).length + 1) "" (-1) 0 true []
    (c :: (more ++ lines mark t))).bind _ = _
  rw [hnode]
  rfl

/-! ### Documents -/

theorem normalised_of_notMem (h : '\r' ∉ cs) : normalised cs = cs := by
  induction cs with
  | nil => rfl
  | cons c cs ih =>
    rw [List.mem_cons, not_or] at h
    obtain ⟨hc, hcs⟩ := h
    unfold normalised
    split
    · next heq => cases heq
    · next heq => exact absurd (List.cons.inj heq).1.symm hc
    · next heq =>
      obtain ⟨rfl, rfl⟩ := List.cons.inj heq
      rw [if_neg (Ne.symm hc), ih hcs]

theorem linesOf_append (hline : '\n' ∉ line) (rest : List Char) :
    linesOf (line ++ '\n' :: rest) = line :: linesOf rest := by
  induction line with
  | nil => rfl
  | cons c line ih =>
    rw [List.mem_cons, not_or] at hline
    rw [List.cons_append, linesOf, if_neg (Ne.symm hline.1), ih hline.2]

/-- The lines of a text, joined, are the text. -/
theorem joinLines_linesOf (cs : List Char) : joinLines (linesOf cs) = cs := by
  have hbreak (l : List Char) (ls : List (List Char)) :
      joinLines ([] :: l :: ls) = '\n' :: joinLines (l :: ls) := rfl
  have hcons (c : Char) (l : List Char) (ls : List (List Char)) :
      joinLines ((c :: l) :: ls) = c :: joinLines (l :: ls) := by
    cases ls <;> rfl
  induction cs with
  | nil => rfl
  | cons c cs ih =>
    obtain ⟨l, ls, hls⟩ : ∃ l ls, linesOf cs = l :: ls := by
      refine List.exists_cons_of_ne_nil fun hnil ↦ ?_
      cases cs with
      | nil => cases hnil
      | cons c' cs =>
        unfold linesOf at hnil
        split at hnil
        · cases hnil
        · split at hnil <;> cases hnil
    rw [hls] at ih
    unfold linesOf
    rw [hls]
    split
    · next heq => rw [hbreak, ih, heq]
    · rw [hcons, ih]

theorem linesOf_lines (h : t.Named) : linesOf (lines mark t) = t.map entryBody ++ [[]] := by
  induction t with
  | nil => rfl
  | cons e t ih =>
    have hname := (h.letters e List.mem_cons_self).2
    have hline := notMem_entryBody (c := '\n') hname rfl rfl (by decide)
    rw [lines_cons_eq, linesOf_append hline, ih h.tail]
    rfl

theorem isMarker_of_head {word : String} (hword : word.toList.head? = some c)
    (hne : line.head? ≠ some c) : isMarker word line = false := by
  obtain ⟨cs, hcs⟩ : ∃ cs, word.toList = c :: cs := List.head?_eq_some_iff.mp hword
  have hprefix : Reader.after? word line = none := by
    refine if_neg fun h ↦ hne ?_
    obtain ⟨more, rfl⟩ := List.isPrefixOf_iff_prefix.mp h
    rw [hcs]
    rfl
  rw [isMarker, hprefix]

theorem isMarker_of_letters (h : ∀ c ∈ line.head?, isNameLetter c = true) :
    isMarker "---" line = false ∧ isMarker "..." line = false := by
  constructor
  · exact isMarker_of_head (c := '-') rfl fun hhead ↦ absurd (h '-' hhead) (by decide)
  · exact isMarker_of_head (c := '.') rfl fun hhead ↦ absurd (h '.' hhead) (by decide)

/-- Lines between markers are one document. -/
theorem split_of_no_marker {ls current : List (List Char)}
    (h : ∀ l ∈ ls, ∀ c ∈ l.head?, isNameLetter c = true) :
    split (some current) ls = [current ++ ls] := by
  induction ls generalizing current with
  | nil => simp [split]
  | cons l ls ih =>
    obtain ⟨hl, hls⟩ := List.forall_mem_cons.mp h
    obtain ⟨hstart, hend⟩ := isMarker_of_letters hl
    rw [split, if_neg (Bool.eq_false_iff.mp hstart), if_neg (Bool.eq_false_iff.mp hend), ih hls,
      List.append_assoc, List.singleton_append]

/-- The first name of a table starts its document. -/
theorem split_of_letter {l : List Char} {ls : List (List Char)} (hfirst : isNameLetter c = true)
    (h : ∀ l' ∈ (c :: l) :: ls, ∀ c' ∈ l'.head?, isNameLetter c' = true) :
    split none ((c :: l) :: ls) = [(c :: l) :: ls] := by
  obtain ⟨hl, hls⟩ := List.forall_mem_cons.mp h
  obtain ⟨hstart, hend⟩ := isMarker_of_letters hl
  have hidle : isIdle (c :: l) = false := by
    have hblank : isBlank c = false := isBlank_of_isOrdinary (isOrdinary_of_isNameLetter hfirst)
    have hcomment : c ≠ '#' := ne_of_isNameLetter hfirst rfl
    have hdirective : c ≠ '%' := ne_of_isNameLetter hfirst rfl
    rw [isIdle, skipBlank_cons hblank]
    simp [hcomment, hdirective]
  rw [split, if_neg (Bool.eq_false_iff.mp hstart), if_neg (Bool.eq_false_iff.mp hend)]
  rw [if_neg (Bool.eq_false_iff.mp hidle), split_of_no_marker hls]
  rfl

theorem split_lines (h : Named (e :: t)) :
    split none (linesOf (lines mark (e :: t))) = [linesOf (lines mark (e :: t))] := by
  have hheads : ∀ l ∈ (e :: t).map entryBody ++ [[]], ∀ c ∈ l.head?, isNameLetter c = true := by
    intro l hl c hc
    rcases List.mem_append.mp hl with hl | hl
    · obtain ⟨e', he', rfl⟩ := List.mem_map.mp hl
      obtain ⟨hne, hname⟩ := h.letters e' he'
      obtain ⟨c', cs, hbody, hc'⟩ := exists_entryBody_cons hne hname
      rw [hbody] at hc
      rwa [← Option.some.inj hc]
    · rw [List.mem_singleton.mp hl] at hc
      cases hc
  obtain ⟨hne, hname⟩ := h.letters e List.mem_cons_self
  obtain ⟨c, cs, hbody, hc⟩ := exists_entryBody_cons hne hname
  rw [linesOf_lines h]
  rw [List.map_cons, List.cons_append, hbody] at hheads ⊢
  exact split_of_letter hc hheads

theorem return_notMem_lines (h : t.Named) : '\r' ∉ lines mark t := by
  induction t with
  | nil => exact List.not_mem_nil
  | cons e t ih =>
    have hname := (h.letters e List.mem_cons_self).2
    have hline := notMem_entryBody (c := '\r') hname rfl rfl (by decide)
    rw [lines_cons_eq, List.mem_append, List.mem_cons]
    rintro (hmem | hmem | hmem)
    · exact hline hmem
    · cases hmem
    · exact ih h.tail hmem

/-- The names give the settings their keys. -/
theorem filterMap_keyName? (t : IntegerTable) :
    (t.map member).filterMap (fun (key, d) ↦ (keyName? key).map fun k ↦ (k, d)) = t.document := by
  induction t with
  | nil => rfl
  | cons e t ih =>
    change (e.1, Datum.integer e.2) :: (t.map member).filterMap _ = _
    rw [ih]
    rfl

end Yaml

namespace IntegerTable

/-- The lines of a table are read as the document that it is. -/
theorem yaml_document? {t : IntegerTable} (h : t.Named) :
    Yaml.document? (lines Yaml.mark t) = some t.document := by
  cases t with
  | nil => rfl
  | cons e t =>
    have hmembers : Document.ofMembers (document (e :: t)) = document (e :: t) :=
      Document.ofMembers_of_nodup (map_fst_document (e :: t) ▸ h.nodup)
    unfold Yaml.document?
    rw [Yaml.normalised_of_notMem (Yaml.return_notMem_lines h), Yaml.split_lines h]
    dsimp only
    rw [Yaml.joinLines_linesOf, Yaml.root?_lines h]
    dsimp only
    rw [Yaml.filterMap_keyName?, hmembers]

end IntegerTable

end Bundling
