import Bundling.Span

/-!
The two limits of a bundle: how many items it takes and how old it may grow. Configured limits are
signed; one that is not positive is replaced by its default and reported, never refused, so
`Limits.check` always gives a policy whose limits are positive.
-/

set_option autoImplicit false
set_option relaxedAutoImplicit false

namespace Bundling

def defaultMaxItems : UInt64 := 1000

def defaultMaxAgeMillis : UInt64 := 1000

/-- The shortest period of the age check. -/
def minCheckPeriodMillis : UInt64 := 1

/-- The limits that a checked coordinator works with. -/
structure Policy where
  maxItems : UInt64
  maxAge : Span
  deriving DecidableEq, Inhabited

namespace Policy

def standard : Policy := ⟨defaultMaxItems, Span.ofMillis defaultMaxAgeMillis⟩

/-- The age limit on the clock's own scale. -/
def maxAgeMillis (p : Policy) : Int64 := Int64.ofInt p.maxAge.toMillis

/-- How often the age of a bundle is looked at. -/
def checkPeriod (p : Policy) : Span := p.maxAge.max (Span.ofMillis minCheckPeriodMillis)

end Policy

/-- A limit that was replaced by its default, with the text that was configured for it. -/
inductive Fallback where
  | size (configured : String)
  | age (configured : String)
  deriving DecidableEq, Inhabited

namespace Fallback

def text : Fallback → String
  | size configured =>
    "Invalid value '" ++ configured ++ "' for the maximum bundle size. Using default value of " ++
      Decimal.text defaultMaxItems.toNat ++ "."
  | age configured =>
    "Invalid value '" ++ configured ++ "' for the maximum bundle time. Using default value of " ++
      Decimal.text defaultMaxAgeMillis.toNat ++ " milliseconds."

end Fallback

/-- A policy with the fallbacks that were needed to get it. -/
structure Checked where
  policy : Policy
  fallbacks : List Fallback
  deriving DecidableEq, Inhabited

/-- Limits as configured, of any sign. -/
structure Limits where
  size : Int64 := defaultMaxItems.toInt64
  ageMillis : Int64 := defaultMaxAgeMillis.toInt64
  deriving DecidableEq, Inhabited

namespace Limits

/-- The word of a positive limit, the default for any other. -/
def positiveOr (fallback : UInt64) (n : Int64) : UInt64 :=
  if n ≤ 0 then fallback else n.toUInt64

def policy (l : Limits) : Policy :=
  ⟨positiveOr defaultMaxItems l.size, Span.ofMillis (positiveOr defaultMaxAgeMillis l.ageMillis)⟩

def fallbacks (l : Limits) : List Fallback :=
  (if l.size ≤ 0 then [.size (Decimal.text l.size.toInt)] else []) ++
    (if l.ageMillis ≤ 0 then [.age (Decimal.text l.ageMillis.toInt)] else [])

def check (l : Limits) : Checked := ⟨l.policy, l.fallbacks⟩

end Limits

end Bundling
