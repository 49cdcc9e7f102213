import Bundling.Document.Json.Printer
import Bundling.Notice
import Bundling.Text.Quoted

/-!
Lines that show a record. A line of text has the time, the level, what else the layout asks for, the
message and the fields; a line of JSON is one object with all of it.
-/

set_option autoImplicit false
set_option relaxedAutoImplicit false

namespace Bundling

/-- How a record is laid out. A line of text may leave out the thread and the target. -/
inductive Layout where
  | text (thread target : Bool)
  | json
  deriving DecidableEq, Inhabited

namespace Field

/-- A field in a line of text: strings in quotes, all else as it is. -/
def text : Field → String
  | shown s => s
  | string s => Text.quote s
  | number n => Decimal.text n
  | flag b => if b then "true" else "false"

def json : Field → Json
  | shown s => .text s
  | string s => .text s
  | number n => Json.integer n
  | flag b => .flag b

end Field

namespace Record

/-- All records are made on the one thread of the program. -/
def threadNumber : Nat := 1

def fieldTexts (r : Record) : List String := r.fields.map fun f ↦ f.1 ++ "=" ++ f.2.text

def textLine (time : String) (thread target : Bool) (r : Record) : String :=
  let level := String.ofList (r.level.name.toList.leftpad 5 ' ')
  let number := String.ofList ((Decimal.ofNat threadNumber).leftpad 2 '0')
  " ".intercalate <| [time, level] ++ (if thread then ["ThreadId(" ++ number ++ ")"] else []) ++
    (if target then [r.target ++ ":"] else []) ++ r.message :: r.fieldTexts

def json (time : String) (r : Record) : Json := .object [
  ("timestamp", .text time), ("level", .text r.level.name),
  ("fields", .object (("message", .text r.message) :: r.fields.map fun f ↦ (f.1, f.2.json))),
  ("target", .text r.target),
  ("threadId", .text ("ThreadId(" ++ Decimal.text threadNumber ++ ")"))]

/-- The line of a record; text in it may hold line breaks of its own. -/
def line (layout : Layout) (time : String) (r : Record) : String :=
  match layout with
  | .text thread target => r.textLine time thread target
  | .json => (r.json time).compact

end Record

end Bundling
