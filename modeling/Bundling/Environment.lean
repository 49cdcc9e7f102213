/-!
The environment of a process: variables with their values, each name once.
-/

set_option autoImplicit false
set_option relaxedAutoImplicit false

namespace Bundling

abbrev Environment := List (String × String)

namespace Environment

def get? (env : Environment) (name : String) : Option String := env.lookup name

end Environment

end Bundling
