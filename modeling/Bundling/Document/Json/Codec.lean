import Bundling.Document.Json.Printer

/-!
What is asked of JSON text: to read data from it, and to write data, on one line or over several.
Data is given a form as JSON values and back for any such codec; `Json.Codec.standard` is one.
-/

set_option autoImplicit false
set_option relaxedAutoImplicit false

namespace Bundling.Json

structure Codec where
  /-- The data of a text, an object or a list. -/
  read? : List Char → Option Json
  write : Json → List Char
  /-- Data for people to read. -/
  pretty : Json → String

/-- Data at the top level. Values below it are read leniently, since few of them are looked at. -/
def data? : Reader Json := fun cs ↦
  let value := value? false cs.length
  match cs with
  | '[' :: cs => (enclosed value ']' cs).map fun r ↦ (.list r.1, r.2)
  | '\x7b' :: cs => (enclosed (member value true) '\x7d' cs).map fun r ↦ (.object r.1, r.2)
  | _ => none

def Codec.standard : Codec := ⟨whole? data?, compactText, Json.pretty⟩

end Bundling.Json
