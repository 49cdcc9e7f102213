import Bundling.Binary64.Text
import Bundling.Document.Datum
import Bundling.Document.Reader

/-!
The scalars of YAML. Plain text stands for nothing, a flag, a number or itself; quoted text and
block text always stand for themselves. Line breaks inside a scalar are folded: one becomes a space,
more become one less.
-/

set_option autoImplicit false
set_option relaxedAutoImplicit false

namespace Bundling.Yaml

def isBlank (c : Char) : Bool := c == ' ' || c == '\t'

def skipBlank (cs : List Char) : List Char := cs.dropWhile isBlank

/-- Whether a space, a line break or the end of the text comes next. -/
def atGap : List Char → Bool
  | [] => true
  | c :: _ => isBlank c || c == '\n'

def isFlowMark (c : Char) : Bool := [',', '[', ']', '\x7b', '\x7d'].contains c

/-! ### Plain text -/

/-- The integer that plain text stands for: in base sixteen or eight, or with a sign to spare. -/
def integer? (cs : List Char) : Option Int64 :=
  match cs with
  | '0' :: 'x' :: ds => (based? 16 ds).or (Decimal.toInt64? cs)
  | '0' :: 'o' :: ds => (based? 8 ds).or (Decimal.toInt64? cs)
  | '+' :: ds => (Decimal.toInt64? ds).or (Decimal.toInt64? cs)
  | cs => Decimal.toInt64? cs
where
  based? (base : Nat) (ds : List Char) : Option Int64 :=
    let (negative, ds) := match ds with
      | '-' :: ds => (true, ds)
      | '+' :: ds => (false, ds)
      | ds => (false, ds)
    if ds = [] then none
    else (Reader.radix? base ds).bind fun n ↦ Decimal.fit? (if negative then -(n : Int) else n)

/-- The names of infinity and of not a number that have no value here. -/
def isUnusableReal (s : String) : Bool :=
  [".inf", ".Inf", ".INF", "+.inf", "+.Inf", "+.INF", "-.inf", "-.Inf", "-.INF", ".nan",
    ".NAN"].contains s

/-- What plain text stands for. -/
def resolve? (cs : List Char) : Option Datum :=
  let s := String.ofList cs
  if s = "" ∨ s = "~" ∨ s = "null" then some .empty
  else if s = "true" then some (.flag true)
  else if s = "false" then some (.flag false)
  else
    match integer? cs with
    | some n => some (.integer n)
    | none =>
      if isUnusableReal s then none
      else if s = "NaN" then some (.real .nan)
      else if cs.any Char.isDigit then
        match Binary64.ofText? cs with
        | some x => some (.real x)
        | none => some (.text s)
      else some (.text s)

/-- What plain text stands for under one of the standard tags. -/
def resolveAs? (tag : String) (cs : List Char) : Option Datum :=
  let s := String.ofList cs
  match tag with
  | "!!bool" =>
    some (if s = "true" then .flag true else if s = "false" then .flag false else .empty)
  | "!!int" => some (((Decimal.toInt64? cs).map Datum.integer).getD .empty)
  | "!!float" =>
    match resolve? cs with
    | none => none
    | some (.integer n) => some (.real ((Binary64.ofText? (Decimal.ofInt n.toInt)).getD .zero))
    | some (.real x) => some (.real x)
    | some _ => some .empty
  | "!!null" => some .empty
  | "" => resolve? cs
  | _ => some (.text s)

/-- One line of plain text. It ends before a colon or a comment that is set off by blanks, in flow
also before brackets and commas; blanks at its end are not part of it. -/
def plainLine (flow afterBlank : Bool) : List Char → List Char × List Char
  | [] => ([], [])
  | c :: cs =>
    if c = '\n' ∨ (c = '#' ∧ afterBlank) ∨ (flow ∧ isFlowMark c) then ([], c :: cs)
    else if c = ':' ∧ (atGap cs ∨ (flow ∧ (cs.head?).any isFlowMark)) then ([], c :: cs)
    else
      let (found, rest) := plainLine flow (isBlank c) cs
      if isBlank c ∧ found = [] then ([], c :: rest) else (c :: found, rest)

/-- Whether plain text may start here. -/
def startsPlain (flow : Bool) : List Char → Bool
  | [] => false
  | c :: cs =>
    if c = '-' ∨ c = '?' ∨ c = ':' then !(atGap cs || (flow && (cs.head?).any isFlowMark))
    else !(isBlank c || c == '\n' || isFlowMark c ||
      ['#', '&', '*', '!', '|', '>', '\'', '"', '%', '@', '\x60'].contains c)

/-! ### Folded line breaks -/

/-- The blanks and line breaks that come next, folded if there is a break among them. -/
def fold (cs : List Char) : List Char × List Char :=
  let isGap (c : Char) : Bool := isBlank c || c == '\n'
  let gap := cs.takeWhile isGap
  let breaks := gap.count '\n'
  if breaks = 0 then (gap, cs.dropWhile isGap)
  else (if breaks = 1 then [' '] else List.replicate (breaks - 1) '\n', cs.dropWhile isGap)

/-! ### Quoted text -/

/-- The rest of text in single quotes; a quote in it is written twice. -/
def single? : Nat → Reader (List Char)
  | 0, _ => none
  | fuel + 1, cs =>
    match cs with
    | [] => none
    | '\'' :: '\'' :: rest => (single? fuel rest).map fun r ↦ ('\'' :: r.1, r.2)
    | '\'' :: rest => some ([], rest)
    | c :: rest =>
      if isBlank c ∨ c = '\n' then
        let (gap, rest) := fold cs
        (single? fuel rest).map fun r ↦ (gap ++ r.1, r.2)
      else (single? fuel rest).map fun r ↦ (c :: r.1, r.2)

def shortEscape? : Char → Option Char
  | '0' => some '\x00'
  | 'a' => some '\x07'
  | 'b' => some '\x08'
  | 't' | '\t' => some '\t'
  | 'n' => some '\n'
  | 'v' => some '\x0b'
  | 'f' => some '\x0c'
  | 'r' => some '\r'
  | 'e' => some '\x1b'
  | ' ' => some ' '
  | '"' => some '"'
  | '/' => some '/'
  | '\\' => some '\\'
  | 'N' => some '\u0085'
  | '_' => some '\u00a0'
  | 'L' => some '\u2028'
  | 'P' => some '\u2029'
  | _ => none

/-- What follows a backslash. -/
def escape? : Reader Char
  | [] => none
  | c :: cs =>
    match c with
    | 'x' => coded 2 cs
    | 'u' => coded 4 cs
    | 'U' => coded 8 cs
    | c => (shortEscape? c).map fun d ↦ (d, cs)
where
  coded (digits : Nat) (cs : List Char) : Option (Char × List Char) := do
    let (n, rest) ← Reader.hex? digits cs
    let c ← Reader.scalar? n
    some (c, rest)

/-- The rest of text in double quotes; a backslash escapes, also a line break. -/
def double? : Nat → Reader (List Char)
  | 0, _ => none
  | fuel + 1, cs =>
    match cs with
    | [] => none
    | '"' :: rest => some ([], rest)
    | '\\' :: '\n' :: rest => double? fuel (skipBlank rest)
    | '\\' :: rest => do
      let (c, rest) ← escape? rest
      let (s, rest) ← double? fuel rest
      some (c :: s, rest)
    | c :: rest =>
      if isBlank c ∨ c = '\n' then
        let (gap, rest) := fold cs
        (double? fuel rest).map fun r ↦ (gap ++ r.1, r.2)
      else (double? fuel rest).map fun r ↦ (c :: r.1, r.2)

def quoted? : Reader (List Char)
  | '\'' :: rest => single? (rest.length + 1) rest
  | '"' :: rest => double? (rest.length + 1) rest
  | _ => none

/-! ### Block text -/

inductive Chomp where
  | strip
  | clip
  | keep
  deriving DecidableEq, Inhabited

/-- The header of block text: what happens to line breaks at its end, and its indentation where it
is given. -/
def header? : List Char → Option ((Chomp × Option Nat) × List Char)
  | '-' :: d :: rest => if isDepth d then some ((.strip, some (depth d)), rest)
    else some ((.strip, none), d :: rest)
  | '+' :: d :: rest => if isDepth d then some ((.keep, some (depth d)), rest)
    else some ((.keep, none), d :: rest)
  | ['-'] => some ((.strip, none), [])
  | ['+'] => some ((.keep, none), [])
  | d :: rest =>
    if isDepth d then
      match rest with
      | '-' :: rest => some ((.strip, some (depth d)), rest)
      | '+' :: rest => some ((.keep, some (depth d)), rest)
      | rest => some ((.clip, some (depth d)), rest)
    else if d = '0' then none
    else some ((.clip, none), d :: rest)
  | [] => some ((.clip, none), [])
where
  isDepth (c : Char) : Bool := '1' ≤ c && c ≤ '9'
  depth (c : Char) : Nat := c.toNat - '0'.toNat

/-- The lines of a text, without their breaks. -/
def linesOf : List Char → List (List Char)
  | [] => [[]]
  | c :: cs =>
    if c = '\n' then [] :: linesOf cs
    else
      match linesOf cs with
      | line :: rest => (c :: line) :: rest
      | [] => [[c]]

def joinLines (lines : List (List Char)) : List Char := ['\n'].intercalate lines

def indentation (line : List Char) : Nat := (line.takeWhile (· == ' ')).length

def isBlankLine (line : List Char) : Bool := line.all (· == ' ')

/-- The lines that belong to block text of an indentation. -/
def blockLines (indent : Nat) (lines : List (List Char)) : List (List Char) :=
  lines.takeWhile fun line ↦ isBlankLine line || decide (indent ≤ indentation line)

/-- Folds lines as far as they start without a blank; blank lines and indented ones keep their
breaks. -/
def foldLines : List (List Char) → List Char
  | [] => []
  | [line] => line
  | line :: next :: rest =>
    let isText (l : List Char) : Bool := (l.head?).any fun c ↦ !isBlank c
    let break' : List Char :=
      if line = [] then ['\n']
      else if isText line && isText next then [' ']
      else if isText line && next == [] then
        if (rest.find? fun l ↦ !l.isEmpty).any isText then [] else ['\n']
      else ['\n']
    line ++ break' ++ foldLines (next :: rest)

/-- The text of a block from its lines. -/
def blockText (folded : Bool) (chomp : Chomp) (lines : List (List Char)) : List Char :=
  let kept := (lines.reverse.dropWhile List.isEmpty).reverse
  let breaks := lines.length - kept.length
  let body := if folded then foldLines kept else joinLines kept
  let last : List Char := if kept = [] then [] else ['\n']
  match chomp with
  | .strip => body
  | .clip => body ++ last
  | .keep => body ++ last ++ List.replicate breaks '\n'

/-- Block text from the end of its header's line on, inside a node of the given indentation. -/
def block? (folded : Bool) (parent : Int) : Reader (List Char) := fun cs ↦ do
  let ((chomp, depth), cs) ← header? cs
  let after := skipBlank cs
  let cs ← match after with
    | [] => some []
    | '\n' :: rest => some rest
    | '#' :: rest => if cs.head? = some '#' then none else
      match rest.dropWhile (· != '\n') with
      | '\n' :: rest => some rest
      | rest => some rest
    | _ => none
  let lines := linesOf cs
  let least : Nat := (parent + 1).toNat
  let indent := match depth with
    | some d => least - 1 + d
    | none => max least (((lines.find? fun l ↦ !isBlankLine l).map indentation).getD least)
  let found := blockLines indent lines
  let rest := lines.drop found.length
  let found := if rest = [] then
      found.dropLast ++ (found.getLast?.filter fun l ↦ !isBlankLine l).toList
    else found
  some (blockText folded chomp (found.map fun l ↦ l.drop indent),
    if rest = [] then [] else '\n' :: joinLines rest)

end Bundling.Yaml
