import BuildQueue.Config.Settings

/-!
# Configuration files

A configuration is read from a file. Where the file is optional, the defaults stand for one that
does not exist.
-/

namespace BuildQueue.SystemConfig

def load (files : FileTree) (path : String) : Except ConfigError SystemConfig :=
  match files.readText path with
  | .error fault => .error (.file fault)
  | .ok text => parse text

def loadOrStandard (files : FileTree) (path : String) : Except ConfigError SystemConfig :=
  if files.exists? path then load files path else .ok standard

/-- The configuration with another database. -/
def withUrl (config : SystemConfig) : Option String → SystemConfig
  | none => config
  | some url => { config with database := { config.database with url } }

end BuildQueue.SystemConfig
