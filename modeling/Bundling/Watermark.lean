import Bundling.Text.Decimal

/-!
Event-time watermarks. A watermark promises that no earlier event follows; the terminal one ends the
stream.
-/

set_option autoImplicit false
set_option relaxedAutoImplicit false

namespace Bundling

structure Watermark where
  timestamp : Int64
  deriving DecidableEq, Inhabited

namespace Watermark

def terminal : Watermark := ⟨Int64.maxValue⟩

def isTerminal (w : Watermark) : Bool := w == terminal

theorem isTerminal_iff {w : Watermark} : w.isTerminal = true ↔ w.timestamp = Int64.maxValue := by
  rw [isTerminal, beq_iff_eq, terminal, mk.injEq]

instance : LE Watermark := ⟨fun v w ↦ v.timestamp.toInt ≤ w.timestamp.toInt⟩

instance (v w : Watermark) : Decidable (v ≤ w) :=
  inferInstanceAs (Decidable (v.timestamp.toInt ≤ w.timestamp.toInt))

def order (v w : Watermark) : Ordering := compare v.timestamp.toInt w.timestamp.toInt

/-- The text that shows the number even of the terminal watermark. -/
def rawText (w : Watermark) : String := "Watermark(" ++ Decimal.text w.timestamp.toInt ++ ")"

def text (w : Watermark) : String := if w.isTerminal then "Watermark(MAX)" else w.rawText

end Watermark

end Bundling
