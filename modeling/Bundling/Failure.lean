import Bundling.Phase

/-!
Why a call fails. A refusal names the rule that the caller broke; the other failures carry what a
collaborator reported. `Failure.message` is the only place where failures are put into words.
-/

set_option autoImplicit false
set_option relaxedAutoImplicit false

namespace Bundling

/-- A call that the coordinator turns down because of its own state. -/
inductive Refusal where
  | cannotStart (phase : Phase)
  | nothingToOpen
  | notRunning (doing : String) (phase : Phase)
  | released (doing : String)
  | other (reason : String)
  deriving DecidableEq, Inhabited

def Refusal.reason : Refusal → String
  | cannotStart phase => "Coordinator cannot start from phase " ++ phase.label
  | nothingToOpen => "Execution unit has already been released"
  | notRunning doing phase => "Cannot " ++ doing ++ " while coordinator is " ++ phase.label
  | released doing => "Cannot " ++ doing ++ ": execution unit has been released"
  | other reason => reason

inductive Failure where
  | unit (operation reason : String)
  | sink (reason : String)
  | timer (reason : String)
  | refused (refusal : Refusal)
  | settings (reason : String)
  | shutdown (failures : List String)
  deriving DecidableEq, Inhabited

namespace Failure

def message : Failure → String
  | unit operation reason => "Execution unit " ++ operation ++ " failed: " ++ reason
  | sink reason => "Sink error: " ++ reason
  | timer reason => "Timer error: " ++ reason
  | refused refusal => "Invalid state: " ++ refusal.reason
  | settings reason => "Configuration error: " ++ reason
  | shutdown failures => "Shutdown failed: " ++ "; ".intercalate failures

/-- Whether the execution unit itself failed. -/
def isUnit : Failure → Bool
  | unit _ _ => true
  | _ => false

end Failure

end Bundling
