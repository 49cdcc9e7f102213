import Bundling.Document.Toml.Scalar
import Bundling.Document.Toml.Table

/-!
TOML text. A document is a sequence of lines: blank ones, assignments to keys of the table opened
last, and headers that open tables. `document?` gives the top-level table, or nothing if the text
breaks a rule anywhere.
-/

set_option autoImplicit false
set_option relaxedAutoImplicit false

namespace Bundling.Toml

/-- Brackets and dotted keys stay below this size. -/
def sizeLimit : Nat := 80

def isBare (c : Char) : Bool :=
  ('a' ≤ c && c ≤ 'z') || ('A' ≤ c && c ≤ 'Z') || c.isDigit || c == '_' || c == '-'

/-- One part of a key: bare, or a string on one line. -/
def keyPart? : Reader String
  | '"' :: rest => (basic? (rest.length + 1) rest).map fun r ↦ (String.ofList r.1, r.2)
  | '\'' :: rest => (literal? rest).map fun r ↦ (String.ofList r.1, r.2)
  | cs => (Reader.some? isBare cs).map fun r ↦ (String.ofList r.1, r.2)

/-- The parts of a key with points between them, and the blanks around each. -/
def keyParts? : Nat → Reader (List String)
  | 0, _ => none
  | fuel + 1, cs => do
    let (first, cs) ← keyPart? (skipBlank cs)
    match skipBlank cs with
    | '.' :: cs =>
      let (rest, cs) ← keyParts? fuel cs
      some (first :: rest, cs)
    | cs => some ([first], cs)

/-- A key as the path to a table and the name in it. -/
def key? : Reader (List String × String) := fun cs ↦ do
  let (parts, rest) ← keyParts? sizeLimit cs
  let name ← parts.getLast?
  if parts.length < sizeLimit then some ((parts.dropLast, name), rest) else none

/-- Passes over blanks, line breaks and comments. -/
def skipLoose (inComment : Bool) : List Char → Option (List Char)
  | [] => some []
  | '\n' :: rest => skipLoose false rest
  | '\r' :: '\n' :: rest => skipLoose false rest
  | c :: rest =>
    if inComment then if isPlain c then skipLoose true rest else none
    else if isBlank c then skipLoose false rest
    else if c = '#' then skipLoose true rest
    else some (c :: rest)

/-- Values with commas between them, up to the closing bracket; a comma may follow the last. -/
def listItems? (value : Reader Datum) : Nat → List Char → Option (List Char)
  | 0, _ => none
  | fuel + 1, cs =>
    match skipLoose false cs with
    | none | some [] => none
    | some (']' :: rest) => some rest
    | some cs =>
      match value cs with
      | none => none
      | some (_, cs) =>
        match skipLoose false cs with
        | some (']' :: rest) => some rest
        | some (',' :: cs) => listItems? value fuel cs
        | _ => none

/-- A key, an equals sign and a value. -/
def assignment? (value : Reader Datum) : Reader ((List String × String) × Datum) := fun cs ↦ do
  let (key, cs) ← key? cs
  let cs ← symbol? '=' cs
  let (d, cs) ← value (skipBlank cs)
  some ((key, d), cs)

/-- Assignments with commas between them, up to the closing brace. -/
def tableItems? (value : Reader Datum) : Nat → Entries → List Char → Option (List Char)
  | 0, _, _ => none
  | fuel + 1, es, cs => do
    let ((key, d), cs) ← assignment? value cs
    let es ← es.addValue key.1 key.2 d false
    match skipBlank cs with
    | ',' :: cs => tableItems? value fuel es cs
    | '\x7d' :: rest => some rest
    | _ => none

def moment : Reader Datum := fun cs ↦ (moment? cs).map fun r ↦ (.text (String.ofList r.1), r.2)

def number : Reader Datum := fun cs ↦
  (number? cs).map fun r ↦
    match r.1 with
    | .integer n => (.integer n, r.2)
    | .real x => (.real x, r.2)

def scalar? : Reader Datum := fun cs ↦
  match cs with
  | '"' :: _ | '\'' :: _ => (string? cs).map fun r ↦ (.text (String.ofList r.1), r.2)
  | 't' :: _ => (Reader.after? "true" cs).map fun rest ↦ (.flag true, rest)
  | 'f' :: _ => (Reader.after? "false" cs).map fun rest ↦ (.flag false, rest)
  | _ => (moment cs).or (number cs)

/-- A value whose brackets are nested at most `depth` deep. -/
def value? : Nat → Reader Datum
  | 0, cs =>
    match cs with
    | '[' :: _ | '\x7b' :: _ => none
    | cs => scalar? cs
  | depth + 1, cs =>
    match cs with
    | '[' :: cs => (listItems? (value? depth) (cs.length + 1) cs).map fun rest ↦ (.list, rest)
    | '\x7b' :: cs =>
      match skipBlank cs with
      | '\x7d' :: rest => some (.table, rest)
      | cs =>
        (tableItems? (value? depth) (cs.length + 1) [] cs).map fun rest ↦ (.table, rest)
    | cs => scalar? cs

/-- The end of a line, perhaps after a comment: the text behind it. -/
def lineEnd? (cs : List Char) : Option (List Char) :=
  let cs := match skipBlank cs with
    | '#' :: rest => rest.dropWhile isPlain
    | cs => cs
  match cs with
  | [] => some []
  | cs => newline? cs

inductive Line where
  | blank
  | assign (path : List String) (key : String) (d : Datum)
  | table (path : List String) (key : String)
  | element (path : List String) (key : String)
  deriving DecidableEq, Inhabited

def line? : Reader Line := fun cs ↦
  match skipBlank cs with
  | [] => some (.blank, [])
  | '[' :: '[' :: cs => do
    let ((path, key), cs) ← key? cs
    let cs ← symbol? ']' cs
    let cs ← symbol? ']' cs
    let rest ← lineEnd? cs
    some (.element path key, rest)
  | '[' :: cs => do
    let ((path, key), cs) ← key? cs
    let cs ← symbol? ']' cs
    let rest ← lineEnd? cs
    some (.table path key, rest)
  | c :: cs =>
    if c = '#' ∨ c = '\n' ∨ c = '\r' then (lineEnd? (c :: cs)).map fun rest ↦ (.blank, rest)
    else do
      let (((path, key), d), cs) ← assignment? (value? (sizeLimit - 1)) (c :: cs)
      let rest ← lineEnd? cs
      some (.assign path key d, rest)

def lines? : Nat → List Char → Option (List Line)
  | _, [] => some []
  | 0, _ => none
  | fuel + 1, cs => do
    let (line, rest) ← line? cs
    let lines ← lines? fuel rest
    some (line :: lines)

/-- The document so far, and the path of the table opened last. -/
structure Draft where
  entries : Entries := []
  path : List String := []
  deriving Inhabited

def Draft.add (d : Draft) : Line → Option Draft
  | .blank => some d
  | .assign path key x =>
    (Entries.update false (fun _ ↦ Entries.addValue path key x false) d.path false d.entries).map
      fun es ↦ { d with entries := es }
  | .table path key => (d.entries.openTable path key).map fun es ↦ ⟨es, path ++ [key]⟩
  | .element path key => (d.entries.openElement path key).map fun es ↦ ⟨es, path ++ [key]⟩

def byteOrderMark : Char := '\uFEFF'

def document? (cs : List Char) : Option Document := do
  let cs := match cs with
    | c :: rest => if c = byteOrderMark then rest else c :: rest
    | [] => []
  let lines ← lines? (cs.length + 1) cs
  let draft ← lines.foldlM Draft.add {}
  some draft.entries.document

end Bundling.Toml
