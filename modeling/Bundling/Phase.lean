/-!
The life of a coordinator: created, running, stopping while the last bundle drains, stopped.
-/

set_option autoImplicit false
set_option relaxedAutoImplicit false

namespace Bundling

inductive Phase where
  | created
  | running
  | stopping
  | stopped
  deriving DecidableEq, Inhabited

namespace Phase

def all : List Phase := [created, running, stopping, stopped]

def code : Phase → Nat
  | created => 0
  | running => 1
  | stopping => 2
  | stopped => 3

/-- Every code beyond the known ones reads as stopped. -/
def ofCode : Nat → Phase
  | 0 => created
  | 1 => running
  | 2 => stopping
  | _ => stopped

def label : Phase → String
  | created => "Created"
  | running => "Running"
  | stopping => "Stopping"
  | stopped => "Stopped"

def ofLabel? (s : String) : Option Phase := all.find? (·.label == s)

instance : LE Phase := ⟨fun p q ↦ p.code ≤ q.code⟩

instance (p q : Phase) : Decidable (p ≤ q) := inferInstanceAs (Decidable (p.code ≤ q.code))

theorem ofCode_code (p : Phase) : ofCode p.code = p := by
  cases p <;> rfl

end Phase

end Bundling
