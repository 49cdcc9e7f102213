import Bundling.CommandLine.Report
import Bundling.Document.Json.Codec
import Mathlib.Data.List.Forall2

/-!
What a report says, line by line and key by key. A table names the source, then has a row for each
limit in effect with its decimal text, then a line for each fallback, or one that says that there
are none. JSON data has the same under its keys. Both are described here by what stands in them and
not by how they are put together.
-/

set_option autoImplicit false
set_option relaxedAutoImplicit false

namespace Bundling.CommandLine

/-! ### Tables -/

/-- A row of a table: a name behind two blanks, and behind more blanks a value that ends where the
row does. A row is as wide as its columns of 26 and 12 characters, or wider by what a value has too
many. -/
structure IsRow (line name value : String) : Prop where
  parts : ∃ gap, line.toList = ' ' :: ' ' :: name.toList ++ List.replicate gap ' ' ++ value.toList
  width : line.length = 29 + max 12 value.length

/-- The line of a fallback tells which limit was replaced by which default, and what was configured
for it. -/
inductive Warns : Fallback → String → Prop where
  | size (configured : String) : Warns (.size configured) ("⚠️  Invalid value '" ++ configured ++
      "' for the maximum bundle size. Using default value of 1000.")
  | age (configured : String) : Warns (.age configured) ("⚠️  Invalid value '" ++ configured ++
      "' for the maximum bundle time. Using default value of 1000 milliseconds.")

/-- The last lines of a table: one for each fallback in their order, or one for none at all. -/
inductive Concludes : List Fallback → List String → Prop where
  | valid : Concludes [] ["✅ All thresholds valid"]
  | warnings {f : Fallback} {fs : List Fallback} {lines : List String}
      (hwarns : List.Forall₂ Warns (f :: fs) lines) : Concludes (f :: fs) lines

/-- The lines of a table with the limits from a source, both as they are in effect. -/
inductive Tabulates (source : String) (checked : Checked) : List String → Prop where
  | lines {header size age period : String} {verdicts : List String}
      (hheader : IsRow header "Setting" "Effective")
      (hsize : IsRow size "max_bundle_size" (Decimal.text checked.policy.maxItems.toNat))
      (hage : IsRow age "max_bundle_time_millis" (Decimal.text checked.policy.maxAge.toMillis))
      (hperiod : IsRow period "check_period_millis"
        (Decimal.text checked.policy.checkPeriod.toMillis))
      (hverdicts : Concludes checked.fallbacks verdicts) :
      Tabulates source checked (["🔧 Bundle Thresholds (" ++ source ++ ")", "", header,
        "  -------------------------- ------------", size, age, period, ""] ++ verdicts)

theorem isRow_tableRow (name value : String) (hname : name.length ≤ Report.nameWidth) :
    IsRow (Report.tableRow name.toList value.toList) name value := by
  have hname : name.length ≤ 26 := hname
  have hgap : List.replicate (26 - name.length) ' ' ++
      ' ' :: List.replicate (12 - value.length) ' ' =
        List.replicate (26 - name.length + (12 - value.length + 1)) ' ' := by
    rw [← List.replicate_succ, List.replicate_append_replicate]
  have hparts : (Report.tableRow name.toList value.toList).toList = ' ' :: ' ' :: name.toList ++
      List.replicate (26 - name.length + (12 - value.length + 1)) ' ' ++ value.toList := by
    rw [← hgap]
    simp [Report.tableRow, Report.nameWidth, Report.valueWidth, List.rightpad, List.leftpad,
      String.length_toList]
  refine ⟨⟨_, hparts⟩, ?_⟩
  rw [← String.length_toList, hparts]
  simp only [List.cons_append, List.length_cons, List.length_append, String.length_toList,
    List.length_replicate]
  omega

theorem warning_eq (configured : String) {limit value unit rest : String}
    (hrest : limit ++ value ++ unit = rest) :
    "⚠️  " ++ ("Invalid value '" ++ configured ++ limit ++ value ++ unit) =
      "⚠️  Invalid value '" ++ configured ++ rest := by
  have hmark : "⚠️  " ++ "Invalid value '" = "⚠️  Invalid value '" := rfl
  rw [← hrest, ← hmark]
  simp only [String.append_assoc, -String.reduceAppend]

theorem warns_text (f : Fallback) : Warns f ("⚠️  " ++ f.text) := by
  cases f with
  | size configured =>
    have hrest : "' for the maximum bundle size. Using default value of " ++
        Decimal.text defaultMaxItems.toNat ++ "." =
          "' for the maximum bundle size. Using default value of 1000." := by decide +kernel
    exact warning_eq configured hrest ▸ Warns.size configured
  | age configured =>
    have hrest : "' for the maximum bundle time. Using default value of " ++
        Decimal.text defaultMaxAgeMillis.toNat ++ " milliseconds." =
          "' for the maximum bundle time. Using default value of 1000 milliseconds." := by
      decide +kernel
    exact warning_eq configured hrest ▸ Warns.age configured

theorem concludes_verdicts (r : Report) : Concludes r.checked.fallbacks r.verdicts := by
  unfold Report.verdicts
  generalize r.checked.fallbacks = fallbacks
  cases fallbacks with
  | nil => exact .valid
  | cons f fs =>
    refine .warnings (List.forall₂_map_right_iff.mpr (List.forall₂_same.mpr fun f _ ↦ ?_))
    exact warns_text f

/-- The table of a report shows what is in effect. -/
theorem Report.tabulates_table (r : Report)
    (hage : r.checked.policy.maxAgeMillis.toInt = r.checked.policy.maxAge.toMillis) :
    Tabulates r.source r.checked r.table := by
  have hrow (name : String) (hname : name.length ≤ nameWidth) (n : Int) :
      IsRow (tableRow name.toList (Decimal.ofInt n)) name (Decimal.text n) := by
    have h := isRow_tableRow name (Decimal.text n) hname
    rwa [Decimal.text, String.toList_ofList] at h
  have hrule : tableRow (List.replicate nameWidth '-') (List.replicate valueWidth '-') =
      "  -------------------------- ------------" := by decide +kernel
  have hlines : Tabulates r.source r.checked _ := .lines
    (isRow_tableRow "Setting" "Effective" (by decide +kernel))
    (hrow "max_bundle_size" (by decide +kernel) r.checked.policy.maxItems.toNat)
    (hrow "max_bundle_time_millis" (by decide +kernel) r.checked.policy.maxAge.toMillis)
    (hrow "check_period_millis" (by decide +kernel) r.checked.policy.checkPeriod.toMillis)
    (concludes_verdicts r)
  rw [← hrule, ← hage] at hlines
  simpa [table, rows] using hlines

example : Report.table ⟨"job parameters", ⟨⟨1000, Span.ofMillis 250⟩, [.size "0"]⟩⟩ =
    ["🔧 Bundle Thresholds (job parameters)",
      "",
      "  Setting                       Effective",
      "  -------------------------- ------------",
      "  max_bundle_size                    1000",
      "  max_bundle_time_millis              250",
      "  check_period_millis                 250",
      "",
      "⚠️  Invalid value '0' for the maximum bundle size. Using default value of 1000."] := by
  decide +kernel

/-! ### JSON data -/

/-- The data of a fallback, under the same keys for both limits but for the default. -/
inductive Tells : Fallback → Json → Prop where
  | size (configured : String) : Tells (.size configured)
      (.object [("setting", .text "max_bundle_size"), ("configured", .text configured),
        ("fallback", .number ⟨false, ['1', '0', '0', '0'], none, none⟩)])
  | age (configured : String) : Tells (.age configured)
      (.object [("setting", .text "max_bundle_time"), ("configured", .text configured),
        ("fallback_millis", .number ⟨false, ['1', '0', '0', '0'], none, none⟩)])

/-- A number of JSON data that is a natural number, written with its digits and nothing else. -/
def IsCount (n : Nat) (j : Json) : Prop := j = .number ⟨false, Decimal.ofNat n, none, none⟩

/-- The data of a report on limits from a source. -/
inductive Describes (source : String) (checked : Checked) : Json → Prop where
  | object {size age period : Json} {warnings : List Json}
      (hsize : IsCount checked.policy.maxItems.toNat size)
      (hage : IsCount checked.policy.maxAge.toMillis age)
      (hperiod : IsCount checked.policy.checkPeriod.toMillis period)
      (hwarnings : List.Forall₂ Tells checked.fallbacks warnings) :
      Describes source checked (.object [("source", .text source), ("max_bundle_size", size),
        ("max_bundle_time_millis", age), ("check_period_millis", period),
        ("warnings", .list warnings)])

theorem tells_json (f : Fallback) : Tells f f.json := by
  cases f with
  | size configured =>
    exact .size configured
  | age configured =>
    exact .age configured

theorem isCount_integer (n : Nat) : IsCount n (Json.integer n) := by
  have hsign : decide ((n : Int) < 0) = false := by simp
  rw [IsCount, Json.integer, Json.Numeral.ofInt, hsign, Int.natAbs_natCast]

/-- The JSON data of a report shows what is in effect. -/
theorem Report.describes_json (r : Report)
    (hage : r.checked.policy.maxAgeMillis.toInt = r.checked.policy.maxAge.toMillis) :
    Describes r.source r.checked r.json := by
  have hwarnings : List.Forall₂ Tells r.checked.fallbacks (r.checked.fallbacks.map Fallback.json) :=
    List.forall₂_map_right_iff.mpr (List.forall₂_same.mpr fun f _ ↦ tells_json f)
  have hobject : Describes r.source r.checked _ := .object
    (isCount_integer r.checked.policy.maxItems.toNat)
    (isCount_integer r.checked.policy.maxAge.toMillis)
    (isCount_integer r.checked.policy.checkPeriod.toMillis) hwarnings
  rw [← hage] at hobject
  exact hobject

/-! ### Formats -/

/-- What is shown of the limits from a source in a format with a name: a table, or JSON data as the
codec writes it for people. -/
inductive Shows (codec : Json.Codec) (source : String) (checked : Checked) :
    String → List String → Prop where
  | json {j : Json} (hdescribes : Describes source checked j) :
      Shows codec source checked "json" [codec.pretty j]
  | table {lines : List String} (htabulates : Tabulates source checked lines) :
      Shows codec source checked "table" lines

end Bundling.CommandLine
