import Bundling.Document.Json.Codec
import Bundling.Threshold.Policy
import Bundling.Watermark

/-!
Limits as JSON data: an object with one key for each limit, or a list of the two in this order. A
limit that is missing has its default, other keys are passed over, and only integers are limits.
-/

set_option autoImplicit false
set_option relaxedAutoImplicit false

namespace Bundling.Limits

def sizeName : String := "max_bundle_size"

def ageName : String := "max_bundle_time_millis"

def integer? : Json → Option Int64
  | .number n => n.int64?
  | _ => none

/-- The limit of a key that may occur once. -/
def member? (members : List (String × Json)) (name : String) (fallback : Int64) : Option Int64 :=
  match members.filter fun m ↦ m.1 == name with
  | [] => some fallback
  | [m] => integer? m.2
  | _ => none

def ofMembers? (members : List (String × Json)) : Option Limits := do
  let standard : Limits := {}
  let size ← member? members sizeName standard.size
  let age ← member? members ageName standard.ageMillis
  some ⟨size, age⟩

def ofItems? : List Json → Option Limits
  | [] => some {}
  | [size] => (integer? size).map fun n ↦ { size := n }
  | [size, age] => do
    let size ← integer? size
    let age ← integer? age
    some ⟨size, age⟩
  | _ => none

def ofJson? : Json → Option Limits
  | .object members => ofMembers? members
  | .list items => ofItems? items
  | _ => none

/-- The object that holds the limits. -/
def json (l : Limits) : Json :=
  .object [(sizeName, Json.integer l.size.toInt), (ageName, Json.integer l.ageMillis.toInt)]

/-- Limits read from their data form. -/
def readWith? (codec : Json.Codec) (cs : List Char) : Option Limits := (codec.read? cs).bind ofJson?

def ofText? (cs : List Char) : Option Limits := readWith? .standard cs

end Bundling.Limits

namespace Bundling.Watermark

/-- A watermark from JSON text: an integer that a word holds. -/
def ofText? (cs : List Char) : Option Watermark :=
  match Json.whole? (Json.scalar? false) cs with
  | some (.number n) => n.int64?.map Watermark.mk
  | _ => none

end Bundling.Watermark
