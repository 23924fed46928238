import TagOutline.Config.Settings

/-!
# Requests for other settings

The settings in use, as they are changed step by step: one of them is assigned after another, and
what was assigned before an error stays assigned.
-/

namespace TagOutline

/-- The settings in use, and all that was told while they were changed. -/
structure Setup where
  settings : Settings
  notices : List Notice

namespace Setup

/-- A request for other settings. Other files may be there each time. -/
inductive Request where
  | load (w : Workspace) (path : Option String)
  | dialect (v : Value)
  | reset

/-- Why a request fails. -/
inductive RequestError where
  | config (error : ConfigError)
  | dialect (error : UnknownDialect)

/-- Work on a setup. What was changed before an error stays changed. -/
abbrev Work :=
  ExceptT RequestError (StateM Setup)

/-- Stops at an error. -/
def check {ε α : Type} (result : Except ε α) (error : ε → RequestError) : Work α :=
  ExceptT.mk (pure (result.mapError error))

def assignConfig (c : Config) : Work Unit :=
  modify fun u => { u with settings := { u.settings with config := c } }

def assignPath (path : String) : Work Unit :=
  modify fun u => { u with settings := { u.settings with path } }

def tell (n : Notice) : Work Unit :=
  modify fun u => { u with notices := u.notices ++ [n] }

def loadFile (l : Loader) (w : Workspace) (path : String) : Work Unit := do
  let text ← check (w.readText path) fun error => .config (.unreadable error)
  let v ← check (Json.readWithin l.depth text) fun fault => .config (.syntactic text fault)
  let c ← check (l.validate v) fun rejection => .config (.invalid rejection)
  assignConfig c
  assignPath path
  tell (.configLoaded path)

def reset : Work Unit := do
  assignConfig .standard
  assignPath ""

def load (l : Loader) (w : Workspace) (path : Option String) : Work Unit := do
  match path with
  | some path => loadFile l w path
  | none =>
    if w.hasPath Settings.standardPath then loadFile l w Settings.standardPath
    else
      tell .configMissing
      reset

def setDialect (v : Value) : Work Unit := do
  let d ← check (Dialect.ofValue v) .dialect
  let u ← get
  assignConfig { u.settings.config with dialect := d }

def perform (l : Loader) : Request → Work Unit
  | .load w path => load l w path
  | .dialect v => setDialect v
  | .reset => reset

/-- What work on a setup gives, and the setup that it leaves. -/
def run {α : Type} (u : Setup) (x : Work α) : Except RequestError α × Setup :=
  StateT.run (ExceptT.run x) u

/-- The setup before the first request. -/
def start : Setup :=
  ⟨.standard, []⟩

/-- The setup that requests lead to, whether they fail or not. -/
def after (l : Loader) (u : Setup) (rs : List Request) : Setup :=
  rs.foldl (fun u r => (u.run (perform l r)).2) u

end Setup

end TagOutline
