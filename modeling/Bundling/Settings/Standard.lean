import Bundling.Binary64.Text
import Bundling.Document.Toml
import Bundling.Document.Yaml
import Bundling.Settings.Load
import Bundling.Text.Lowercase
import Bundling.Text.Quoted

/-!
The standard backend. It reads TOML, YAML and JSON; a file in another format needs another backend.
Keys are the same up to case. A key written as a path sets a member of a table or an element of a
list; the setting it starts with is then that table or list, and comes from nowhere, since it is put
together from parts.
-/

set_option autoImplicit false
set_option relaxedAutoImplicit false

namespace Bundling

/-! ### Files -/

inductive DocumentFormat where
  | toml
  | yaml
  | json
  deriving DecidableEq, Inhabited

namespace DocumentFormat

/-- What stands behind the last point of a file's name, unless nothing stands before it. -/
def suffix? (name : List Char) : Option (List Char) :=
  let file := (name.reverse.takeWhile (· != '/')).reverse
  let last := (file.reverse.takeWhile (· != '.')).reverse
  if last.length + 1 < file.length then some last else none

def ofExtension? : String → Option DocumentFormat
  | "toml" => some toml
  | "yaml" => some yaml
  | "yml" => some yaml
  | "json" => some json
  | _ => none

def ofName? (name : String) : Option DocumentFormat :=
  ((suffix? name.toList).map String.ofList).bind ofExtension?

def read? : DocumentFormat → List Char → Option Document
  | toml => Toml.document?
  | yaml => Yaml.document?
  | json => Json.document?

end DocumentFormat

namespace SettingsFile

/-- The top-level table of a file in one of the formats. -/
def table (f : SettingsFile) : Except String Document :=
  match f.content with
  | .text s =>
    match DocumentFormat.ofName? f.path with
    | none => .error "not of a registered file format"
    | some format =>
      match format.read? s.toList with
      | none => .error "not a table of settings"
      | some d => .ok d
  | _ => .error "stream did not contain valid UTF-8"

end SettingsFile

/-- A path without steps that stay where they are, or the environment. -/
def Origin.text : Origin → String
  | file path => "/".intercalate ((path.splitOn "/").filter fun s ↦ s != "." && s != "")
  | environment => "the environment"

/-! ### Keys -/

namespace Settings

/-- A step of a path behind the name it starts with. -/
inductive Hop where
  | member
  | element
  deriving DecidableEq, Inhabited

def isNameChar (c : Char) : Bool :=
  ('a' ≤ c && c ≤ 'z') || ('A' ≤ c && c ≤ 'Z') || c.isDigit || c == ' ' || c == '_' || c == '-'

def isSpace (c : Char) : Bool := c == ' ' || c == '\t' || c == '\n' || c == '\r'

/-- The index of an element, up to its closing bracket: the text behind that. -/
def index? (cs : List Char) : Option (List Char) := do
  let cs := cs.dropWhile isSpace
  let (negative, cs) := match cs with
    | '-' :: cs => (true, cs)
    | cs => (false, cs)
  let (digits, cs) ← Reader.some? Char.isDigit cs
  let value : Int := Nat.ofDigitChars 10 digits 0
  let _ ← Decimal.fit? (if negative then -value else value)
  match cs.dropWhile isSpace with
  | ']' :: rest => some rest
  | _ => none

/-- The steps of a path to the end of the text. -/
def hops? : Nat → List Char → Option (List Hop)
  | _, [] => some []
  | 0, _ => none
  | fuel + 1, '.' :: cs => do
    let (_, rest) ← Reader.some? isNameChar cs
    let hops ← hops? fuel rest
    some (.member :: hops)
  | fuel + 1, '[' :: cs => do
    let rest ← index? cs
    let hops ← hops? fuel rest
    some (.element :: hops)
  | _, _ => none

/-- The setting that a key is about, and the first step into it. A key that is no path is a name as
it stands, up to case. -/
def target (key : String) : String × Option Hop :=
  match Reader.some? isNameChar key.toList with
  | none => (Text.lower key, none)
  | some (name, rest) =>
    match hops? (rest.length + 1) rest with
    | none => (Text.lower key, none)
    | some hops => (Text.lower (String.ofList name), hops.head?)

def put (s : Settings) (name : String) (v : Setting) : Settings :=
  (name, v) :: s.filter fun e ↦ e.1 != name

/-- A value as a setting. -/
def placed (origin : Origin) : Datum → Setting
  | .table => ⟨.table, none⟩
  | d => ⟨d, some origin.text⟩

/-- Sets one key of a source. -/
def set (s : Settings) (origin : Origin) (key : String) (d : Datum) : Settings :=
  let (name, hop) := target key
  match hop with
  | some .member => s.put name ⟨.table, none⟩
  | some .element =>
    match s.lookup name with
    | some ⟨.list, _⟩ => s
    | _ => s.put name ⟨.list, none⟩
  | none => s.put name (placed origin d)

end Settings

/-! ### Values -/

namespace Datum

/-- The words that stand for one and for zero. -/
def ofSwitch? (s : String) : Option Int64 :=
  let word := Text.lower s
  if word = "true" ∨ word = "on" ∨ word = "yes" then some 1
  else if word = "false" ∨ word = "off" ∨ word = "no" then some 0
  else none

def int64? : Datum → Option Int64
  | flag b => some (if b then 1 else 0)
  | integer n => some n
  | real x => some x.toInt64
  | text s => (ofSwitch? s).or (Decimal.toInt64? s.toList)
  | empty | list | table => none

/-- What a value that is no integer is called. -/
def kind : Datum → String
  | empty => "unit value"
  | flag b => "boolean \x60" ++ (if b then "true" else "false") ++ "\x60"
  | integer n => "integer \x60" ++ Decimal.text n.toInt ++ "\x60"
  | real _ => "floating point number"
  | text s => "string " ++ Text.quote s
  | list => "sequence"
  | table => "map"

/-- A flag, an integer or a double if the text is that of one, and the text itself otherwise. -/
def guess (s : String) : Datum :=
  let word := Text.lower s
  if word = "true" then .flag true
  else if word = "false" then .flag false
  else
    match Decimal.toInt64? s.toList with
    | some n => .integer n
    | none =>
      match Binary64.ofText? s.toList with
      | some x => .real x
      | none => .text s

end Datum

namespace Mismatch

def text (m : Mismatch) : String :=
  "invalid type: " ++ m.setting.datum.kind ++ ", expected an integer for key \x60" ++ m.key ++
    "\x60" ++
    (match m.setting.origin with
      | some origin => " in " ++ origin
      | none => "")

end Mismatch

/-! ### Variables -/

namespace Environment

/-- The key of the setting that a variable holds, the prefix of such variables given. -/
def key? (stem variableName : String) : Option String :=
  (Reader.after? (Text.lower stem ++ "_") (Text.lower variableName).toList).map String.ofList

def document (stem : String) (env : Environment) : Document :=
  env.filterMap fun v ↦ (key? stem v.1).map fun key ↦ (key, Datum.guess v.2)

end Environment

/-! ### The backend -/

def Backend.standard : Backend where
  table := SettingsFile.table
  fromVariables := Environment.document
  guess := Datum.guess
  isPath := fun key ↦ (Settings.target key).2.isSome
  subject := fun key ↦ (Settings.target key).1
  place := Settings.placed
  set := Settings.set
  int64? := Datum.int64?
  reason := Mismatch.text

@[simp] theorem Backend.standard_guess (s : String) : standard.guess s = Datum.guess s := rfl

namespace Limits

def load (file : Option SettingsFile) (env : Environment) : Except LoadFailure Limits :=
  Backend.standard.load file env

def loadNotices (file : Option SettingsFile) (env : Environment) : List Notice :=
  Backend.standard.loadNotices file env

end Limits

end Bundling
