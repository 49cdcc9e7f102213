import Bundling.Document.Datum
import Bundling.Document.Reader
import Bundling.Text.Decimal

/-!
JSON text. Reading is strict or lenient. A strict reader refuses strings with a lone surrogate,
numbers that no finite double is near to, and brackets nested more than 127 deep. A lenient reader
checks only the grammar; it is for values that nobody looks at.
-/

set_option autoImplicit false
set_option relaxedAutoImplicit false

namespace Bundling

namespace Json

/-- A number as written: digits before the point, digits behind it, and the power of ten. -/
structure Numeral where
  negative : Bool
  whole : List Char
  part : Option (List Char) := none
  power : Option (Bool × List Char) := none
  deriving DecidableEq, Inhabited

end Json

inductive Json where
  | null
  | flag (b : Bool)
  | number (n : Json.Numeral)
  | text (s : String)
  | list (items : List Json)
  | object (members : List (String × Json))
  deriving Inhabited

namespace Json

namespace Numeral

/-- The integer that a numeral without point and power stands for. A minus before zero makes a
number that is no integer. -/
def integer? (n : Numeral) : Option Int :=
  match n.part, n.power with
  | none, none =>
    let value := Nat.ofDigitChars 10 n.whole 0
    if n.negative then (if value = 0 then none else some (-(value : Int))) else some value
  | _, _ => none

def int64? (n : Numeral) : Option Int64 := n.integer?.bind Decimal.fit?

/-- Appends digits to a significand as long as it fits a word; what is left over comes back. -/
def absorb (significand : Nat) : List Char → Nat × List Char
  | [] => (significand, [])
  | d :: ds =>
    let next := significand * 10 + (d.toNat - '0'.toNat)
    if next < Nat.pow 2 64 then absorb next ds else (significand, d :: ds)

def timesPower (x : Binary64) (k : Nat) : Binary64 :=
  match Binary64.ofNat (Nat.pow 10 k) with
  | .finite _ m e => x.scale (Binary64.ratio m e).1 (Binary64.ratio m e).2
  | _ => x

def overPower (x : Binary64) (k : Nat) : Binary64 :=
  match Binary64.ofNat (Nat.pow 10 k) with
  | .finite _ m e => x.scale (Binary64.ratio m e).2 (Binary64.ratio m e).1
  | _ => x

/-- Multiplies by a power of ten in steps of at most 308, each rounded; nothing if the result is too
large. -/
def shifted? (x : Binary64) (power : Int) : Option Binary64 :=
  if power < -308 then
    if x = Binary64.zero then some x else shifted? (overPower x 308) (power + 308)
  else if power < 0 then some (overPower x (-power).toNat)
  else if x = Binary64.zero then some x
  else if 308 < power then none
  else
    match timesPower x power.toNat with
    | .infinite _ => none
    | y => some y
termination_by (-power).toNat

def powerValue (n : Numeral) : Int :=
  match n.power with
  | none => 0
  | some (down, digits) =>
    let value : Int := Nat.ofDigitChars 10 digits 0
    if down then -value else value

/-- The double read from a numeral: the digits that fit a word, shifted by the power of ten. -/
def real? (n : Numeral) : Option Binary64 :=
  let (whole, excess) := absorb 0 n.whole
  let part := n.part.getD []
  let (significand, rest) := absorb whole part
  let power := (excess.length : Int) - (part.length - rest.length : Nat) + n.powerValue
  (shifted? (Binary64.ofNat significand) power).map fun x ↦ if n.negative then x.neg else x

def datum? (n : Numeral) : Option Datum :=
  match n.int64? with
  | some k => some (.integer k)
  | none => n.real?.map .real

end Numeral

def isBlank (c : Char) : Bool := c == ' ' || c == '\n' || c == '\t' || c == '\r'

def skipBlank (cs : List Char) : List Char := cs.dropWhile isBlank

/-! ### Numbers -/

/-- One or more digits. -/
def digits? : Reader (List Char) := Reader.some? Char.isDigit

def part? : Reader (Option (List Char)) := fun cs ↦
  match cs with
  | '.' :: cs => (digits? cs).map fun r ↦ (some r.1, r.2)
  | cs => some (none, cs)

def power? : Reader (Option (Bool × List Char)) := fun cs ↦
  match cs with
  | 'e' :: cs | 'E' :: cs =>
    let (down, cs) := match cs with
      | '-' :: cs => (true, cs)
      | '+' :: cs => (false, cs)
      | cs => (false, cs)
    (digits? cs).map fun r ↦ (some (down, r.1), r.2)
  | cs => some (none, cs)

/-- A numeral without its sign; more than one digit never starts with zero. -/
def numeral? (negative : Bool) : Reader Numeral := fun cs ↦ do
  let (whole, cs) ← digits? cs
  if 1 < whole.length ∧ whole.head? = some '0' then none
  let (part, cs) ← part? cs
  let (power, cs) ← power? cs
  some (⟨negative, whole, part, power⟩, cs)

/-! ### Strings -/

/-- A character of a string, or a code unit written in hexadecimal. -/
inductive Piece where
  | char (c : Char)
  | unit (n : Nat)
  deriving DecidableEq, Inhabited

def shortEscape? : Char → Option Char
  | '"' => some '"'
  | '\\' => some '\\'
  | '/' => some '/'
  | 'b' => some '\x08'
  | 'f' => some '\x0c'
  | 'n' => some '\n'
  | 'r' => some '\r'
  | 't' => some '\t'
  | _ => none

/-- The pieces of a string up to its closing quote. -/
def pieces? : Reader (List Piece)
  | [] => none
  | '"' :: rest => some ([], rest)
  | '\\' :: 'u' :: a :: b :: c :: d :: rest =>
    match Reader.radix? 16 [a, b, c, d], pieces? rest with
    | some n, some (ps, rest) => some (.unit n :: ps, rest)
    | _, _ => none
  | '\\' :: c :: rest =>
    match shortEscape? c, pieces? rest with
    | some c, some (ps, rest) => some (.char c :: ps, rest)
    | _, _ => none
  | c :: rest =>
    if c.toNat < 0x20 ∨ c = '\\' then none
    else (pieces? rest).map fun r ↦ (.char c :: r.1, r.2)

/-- Whether a code unit starts, or ends, a pair. -/
def isHigh (n : Nat) : Bool := 0xD800 ≤ n && n ≤ 0xDBFF

def isLow (n : Nat) : Bool := 0xDC00 ≤ n && n ≤ 0xDFFF

/-- The characters that pieces stand for, unless a surrogate stands alone. -/
def joined? : List Piece → Option (List Char)
  | [] => some []
  | .char c :: ps => (joined? ps).map (c :: ·)
  | .unit n :: .unit m :: ps =>
    if isHigh n then
      if isLow m then
        (joined? ps).map (Char.ofNat (0x10000 + (n - 0xD800) * 0x400 + (m - 0xDC00)) :: ·)
      else none
    else if isLow n then none
    else (joined? (.unit m :: ps)).map (Char.ofNat n :: ·)
  | .unit n :: ps =>
    if isHigh n || isLow n then none else (joined? ps).map (Char.ofNat n :: ·)
termination_by ps => ps.length

/-- A string after its opening quote. A lenient reader does not look at code units. -/
def string? (strict : Bool) : Reader String := fun cs ↦ do
  let (ps, rest) ← pieces? cs
  match joined? ps with
  | some s => some (String.ofList s, rest)
  | none => if strict then none else some ("", rest)

/-! ### Values -/

/-- One or more items with commas between them, up to the closing bracket. -/
def itemsUpTo {α : Type} (item : Reader α) (close : Char) : Nat → Reader (List α)
  | 0, _ => none
  | fuel + 1, cs =>
    match item (skipBlank cs) with
    | none => none
    | some (x, cs) =>
      match skipBlank cs with
      | ',' :: cs => (itemsUpTo item close fuel cs).map fun r ↦ (x :: r.1, r.2)
      | c :: cs => if c = close then some ([x], cs) else none
      | [] => none

/-- What stands between two brackets, after the opening one. -/
def enclosed {α : Type} (item : Reader α) (close : Char) : Reader (List α) := fun cs ↦
  match skipBlank cs with
  | [] => none
  | c :: rest => if c = close then some ([], rest) else itemsUpTo item close (cs.length + 1) cs

/-- A key, a colon and a value. -/
def member (value : Reader Json) (strictKeys : Bool) : Reader (String × Json) := fun cs ↦
  match cs with
  | '"' :: cs =>
    match string? strictKeys cs with
    | none => none
    | some (key, cs) =>
      match skipBlank cs with
      | ':' :: cs => (value (skipBlank cs)).map fun r ↦ ((key, r.1), r.2)
      | _ => none
  | _ => none

def number? (strict negative : Bool) : Reader Json := fun cs ↦ do
  let (n, rest) ← numeral? negative cs
  if strict ∧ n.datum?.isNone then none
  some (.number n, rest)

def scalar? (strict : Bool) : Reader Json := fun cs ↦
  match cs with
  | '"' :: cs => (string? strict cs).map fun r ↦ (.text r.1, r.2)
  | '-' :: cs => number? strict true cs
  | 'n' :: _ => (Reader.after? "null" cs).map fun rest ↦ (.null, rest)
  | 't' :: _ => (Reader.after? "true" cs).map fun rest ↦ (.flag true, rest)
  | 'f' :: _ => (Reader.after? "false" cs).map fun rest ↦ (.flag false, rest)
  | cs => number? strict false cs

/-- A value whose brackets are nested at most `depth` deep. -/
def value? (strict : Bool) : Nat → Reader Json
  | 0, cs => scalar? strict cs
  | depth + 1, cs =>
    match cs with
    | '[' :: cs => (enclosed (value? strict depth) ']' cs).map fun r ↦ (.list r.1, r.2)
    | '\x7b' :: cs =>
      (enclosed (member (value? strict depth) strict) '\x7d' cs).map fun r ↦ (.object r.1, r.2)
    | cs => scalar? strict cs

/-- The one value of a whole text. -/
def whole? {α : Type} (value : Reader α) (cs : List Char) : Option α :=
  match value (skipBlank cs) with
  | some (x, rest) => if skipBlank rest = [] then some x else none
  | none => none

def maxDepth : Nat := 127

def parse? (cs : List Char) : Option Json := whole? (value? true maxDepth) cs

def datum? : Json → Option Datum
  | null => some .empty
  | flag b => some (.flag b)
  | number n => n.datum?
  | text s => some (.text s)
  | list _ => some .list
  | object _ => some .table

/-- The document that JSON text holds: an object at the top. -/
def document? (cs : List Char) : Option Document :=
  match parse? cs with
  | some (.object members) =>
    let data := members.mapM fun (key, value) ↦ value.datum?.map fun d ↦ (key, d)
    data.map Document.ofMembers
  | _ => none

/-! ### Writing -/

def hexText (n : Nat) : List Char := (Nat.toDigits 16 n).leftpad 4 '0'

def escape (c : Char) : List Char :=
  match c with
  | '"' => ['\\', '"']
  | '\\' => ['\\', '\\']
  | '\x08' => ['\\', 'b']
  | '\x0c' => ['\\', 'f']
  | '\n' => ['\\', 'n']
  | '\r' => ['\\', 'r']
  | '\t' => ['\\', 't']
  | c => if c.toNat < 0x20 then '\\' :: 'u' :: hexText c.toNat else [c]

/-- A string in quotes, with the escapes that it needs. -/
def quoted (s : String) : String := String.ofList ('"' :: s.toList.flatMap escape ++ ['"'])

end Json

end Bundling
