import Bundling.Document.Json
import Bundling.Tally

/-!
A report of the counters as JSON data. The counters are integers and read back as they were; the
average is written with the fewest digits that tell it from other doubles, and reading rounds more
than once, so now and then its neighbour comes back.
-/

set_option autoImplicit false
set_option relaxedAutoImplicit false

namespace Bundling.Tally

/-- The average as data; no finite number is written for one that is none. -/
def averageText (t : Tally) : List Char :=
  match t.average with
  | .finite negative m e => Binary64.dataText negative m e
  | _ => []

/-- Whether a report reads back equal to what was written. -/
def survivesData (t : Tally) : Bool :=
  match Json.parse? t.averageText with
  | some (.number n) => n.real? == some t.average
  | _ => false

end Bundling.Tally
