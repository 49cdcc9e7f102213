import Bundling.Failure

/-!
Planned failures of a collaborator's call: some calls pass, then some fail, then the rest pass.
-/

set_option autoImplicit false
set_option relaxedAutoImplicit false

namespace Bundling

structure Fault where
  skip : Nat
  /-- How many calls fail after the skipped ones; all of them if there is no number. -/
  times : Option Nat
  failure : Failure
  deriving DecidableEq, Inhabited

namespace Fault

/-- Whether the next call fails, and the plan for the calls after it. -/
def next (f : Fault) : Option Failure × Fault :=
  match f.skip, f.times with
  | skip + 1, _ => (none, { f with skip := skip })
  | 0, none => (some f.failure, f)
  | 0, some 0 => (none, f)
  | 0, some (n + 1) => (some f.failure, { f with times := some n })

def draw : Option Fault → Option Failure × Option Fault
  | none => (none, none)
  | some f => (f.next.1, some f.next.2)

end Fault

end Bundling
