import TagOutline.Config.Loader
import TagOutline.Files.Text
import TagOutline.Json.Reader

/-!
# Settings

The configuration in use, and the path of the file that it came from. It changes only as a whole:
by a file that holds a valid configuration, by another dialect, or back to the standard one. What
fails changes nothing.
-/

namespace TagOutline

/-- The configuration in use and the path of its file, which is empty if there is none. -/
structure Settings where
  config : Config
  path : String
  deriving DecidableEq

/-- Why a configuration cannot be loaded. -/
inductive ConfigError where
  | unreadable (error : TextFileError)
  | syntactic (text : String) (fault : Json.Fault)
  | invalid (rejection : Rejection)

def ConfigError.message : ConfigError → String
  | .unreadable error => error.message
  | .syntactic text fault => fault.message text
  | .invalid rejection => rejection.report

namespace Settings

/-- The settings where nothing was loaded. -/
def standard : Settings :=
  ⟨.standard, ""⟩

/-- The path of the configuration that is loaded where none is asked for. -/
def standardPath : String :=
  "node_parser_config.json"

/-- The configuration in a file. -/
def readConfig (l : Loader) (w : Workspace) (path : String) : Except ConfigError Config :=
  match w.readText path with
  | .error e => .error (.unreadable e)
  | .ok text =>
    match Json.readWithin l.depth text with
    | .error fault => .error (.syntactic text fault)
    | .ok v => (l.validate v).mapError .invalid

/-- The settings that loading a file leads to. -/
def loadFile (l : Loader) (w : Workspace) (path : String) : Logged ConfigError Settings :=
  match readConfig l w path with
  | .error e => ⟨[], .error e⟩
  | .ok config => ⟨[.configLoaded path], .ok ⟨config, path⟩⟩

/-- The settings that loading leads to. Where no path is given and there is no file at the standard
one, they are the standard settings. -/
def load (l : Loader) (w : Workspace) (path : Option String) : Logged ConfigError Settings :=
  match path with
  | some path => loadFile l w path
  | none =>
    if w.hasPath standardPath then loadFile l w standardPath
    else ⟨[.configMissing], .ok standard⟩

/-- The settings with another dialect. -/
def setDialect (s : Settings) (v : Value) : Except UnknownDialect Settings :=
  match Dialect.ofValue v with
  | .ok d => .ok { s with config := { s.config with dialect := d } }
  | .error e => .error e

end Settings

end TagOutline
