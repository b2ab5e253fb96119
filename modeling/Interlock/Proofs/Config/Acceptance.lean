import Mathlib.Data.List.Nodup
import Interlock.Config.Validity

/-!
What an accepted configuration keeps to. No two of its paths name one channel, no two of its variables have
one name, and every reference is to something that it declares.
-/

set_option autoImplicit false

namespace Interlock.Config

-- The paths of all channels that a configuration declares, those of devices first.
def paths (config : Config) : List String :=
  config.devices.flatMap Device.paths ++ config.channels.map (·.path)

end Interlock.Config
