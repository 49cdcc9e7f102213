import Bundling.Text.Blank
import Bundling.Threshold.Policy

/-!
Limits from job parameters. A missing parameter means the default, silently. A parameter that is not
the decimal text of a 64-bit integer, blanks around it aside, means the default too and is reported
with its text as given. The limits read are then checked like any others.
-/

set_option autoImplicit false
set_option relaxedAutoImplicit false

namespace Bundling.Parameters

def sizeKey : String := "bundle.max-size"

def ageKey : String := "bundle.max-time-millis"

/-- The value of a parameter that can be read. -/
def value? (raw : String) : Option Int64 := Decimal.toInt64? (Text.trimChars raw.toList)

def valueOr (fallback : Int64) (raw : Option String) : Int64 :=
  (raw.map fun r ↦ (value? r).getD fallback).getD fallback

/-- The text of a parameter that is present and cannot be read. -/
def unreadable (raw : Option String) : Option String := raw.filter fun r ↦ (value? r).isNone

def limits (get : String → Option String) : Limits where
  size := valueOr defaultMaxItems.toInt64 (get sizeKey)
  ageMillis := valueOr defaultMaxAgeMillis.toInt64 (get ageKey)

def fallbacks (get : String → Option String) : List Fallback :=
  ((unreadable (get sizeKey)).map Fallback.size).toList ++
    ((unreadable (get ageKey)).map Fallback.age).toList

/-- The policy that job parameters ask for. Unreadable values are reported before values that are
not positive. -/
def check (get : String → Option String) : Checked :=
  let checked := (limits get).check
  { checked with fallbacks := fallbacks get ++ checked.fallbacks }

end Bundling.Parameters
