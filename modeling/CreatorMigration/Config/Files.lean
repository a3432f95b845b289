import CreatorMigration.Config.Reader
import CreatorMigration.Disk

/-! # Configuration files

* `Config.load` reads a configuration from a file that must be there.
* `Config.discover` reads the one in the root of a project, and has the defaults without one.
-/

namespace CreatorMigration

namespace ConfigError

def message : ConfigError → String
  | unreadable path reason => "cannot read config " ++ path.text ++ ": " ++ reason
  | invalidDocument => "invalid config"
  | invalidPattern pattern => "invalid pattern " ++ pattern

end ConfigError

namespace Config

def load (disk : Disk) (path : Path) : Except ConfigError Config :=
  match disk.read path with
  | .ok text => ofText text
  | .error reason => .error (.unreadable path reason.message)

def discover (disk : Disk) (root : Path) : Except ConfigError Config :=
  let path := root.under ⟨fileName⟩
  if disk.isFile path then load disk path else .ok {}

end Config

end CreatorMigration
