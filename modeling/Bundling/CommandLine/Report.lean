import Bundling.Document.Json.Printer
import Bundling.Threshold.Policy

/-!
What the tool reports: the limits in effect, where they come from, and the fallbacks. A report is
shown as a table or as JSON data.
-/

set_option autoImplicit false
set_option relaxedAutoImplicit false

namespace Bundling

def Fallback.json : Fallback → Json
  | .size configured => .object [("setting", .text "max_bundle_size"),
      ("configured", .text configured), ("fallback", Json.integer defaultMaxItems.toNat)]
  | .age configured => .object [("setting", .text "max_bundle_time"),
      ("configured", .text configured), ("fallback_millis", Json.integer defaultMaxAgeMillis.toNat)]

namespace CommandLine

structure Report where
  source : String
  checked : Checked
  deriving DecidableEq, Inhabited

namespace Report

/-- The limits in effect, by name. -/
def rows (r : Report) : List (String × Int) :=
  let p := r.checked.policy
  [("max_bundle_size", p.maxItems.toNat), ("max_bundle_time_millis", p.maxAgeMillis.toInt),
    ("check_period_millis", p.checkPeriod.toMillis)]

def nameWidth : Nat := 26

def valueWidth : Nat := 12

/-- A row of the table: names flush left, values flush right, neither ever cut. -/
def tableRow (name value : List Char) : String :=
  String.ofList (' ' :: ' ' :: name.rightpad nameWidth ' ' ++ ' ' :: value.leftpad valueWidth ' ')

def verdicts (r : Report) : List String :=
  match r.checked.fallbacks with
  | [] => ["✅ All thresholds valid"]
  | fallbacks => fallbacks.map fun f ↦ "⚠️  " ++ f.text

def table (r : Report) : List String :=
  ["🔧 Bundle Thresholds (" ++ r.source ++ ")", "",
    tableRow "Setting".toList "Effective".toList,
    tableRow (List.replicate nameWidth '-') (List.replicate valueWidth '-')] ++
  r.rows.map (fun row ↦ tableRow row.1.toList (Decimal.ofInt row.2)) ++ [""] ++ r.verdicts

def json (r : Report) : Json :=
  .object ((("source", .text r.source) :: r.rows.map fun row ↦ (row.1, Json.integer row.2)) ++
    [("warnings", .list (r.checked.fallbacks.map Fallback.json))])

end Report

end CommandLine

end Bundling
