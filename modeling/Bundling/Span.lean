import Bundling.Text.Decimal

/-!
Lengths of time as whole seconds and nanoseconds, and their reading in milliseconds.
-/

set_option autoImplicit false
set_option relaxedAutoImplicit false

namespace Bundling

structure Span where
  seconds : UInt64
  nanos : UInt32
  deriving DecidableEq, Inhabited

namespace Span

def ofMillis (n : UInt64) : Span := ⟨n / 1000, (n % 1000).toUInt32 * 1000000⟩

def toMillis (s : Span) : Nat := s.seconds.toNat * 1000 + s.nanos.toNat / 1000000

def max (s t : Span) : Span := if s.toMillis < t.toMillis then t else s

theorem toMillis_ofMillis (n : UInt64) : (ofMillis n).toMillis = n.toNat := by
  have h : n.toNat % 1000 < 1000 := Nat.mod_lt _ (by decide)
  simp only [ofMillis, toMillis, UInt64.toNat_div, UInt32.toNat_mul, UInt64.toNat_toUInt32,
    UInt64.toNat_mod, UInt64.reduceToNat, UInt32.reduceToNat]
  rw [Nat.mod_eq_of_lt (by omega : n.toNat % 1000 < 2 ^ 32),
    Nat.mod_eq_of_lt (by omega : n.toNat % 1000 * 1000000 < 2 ^ 32)]
  omega

/-- The digits after the point of a fraction with `places` places, without zeros at the end. -/
def fraction (places n : Nat) : String :=
  let digits := (Nat.toDigits 10 n).leftpad places '0'
  String.ofList (digits.reverse.dropWhile (· == '0')).reverse

/-- Seconds if there is at least one, milliseconds otherwise, with the digits that matter. -/
def text (s : Span) : String :=
  let show' (whole : Nat) (places rest : Nat) (unit : String) :=
    if rest = 0 then Decimal.text whole ++ unit
    else Decimal.text whole ++ "." ++ fraction places rest ++ unit
  if s.seconds ≠ 0 then show' s.seconds.toNat 9 s.nanos.toNat "s"
  else show' (s.nanos.toNat / 1000000) 6 (s.nanos.toNat % 1000000) "ms"

end Span

end Bundling
