import TagOutline.CommandLine.Arguments
import TagOutline.CommandLine.Error
import TagOutline.CommandLine.Host

/-!
# Running a command line

A run loads the configuration, reads the outline of the files that the patterns match, and writes it
as JSON or as HTML to a file or to the standard output. Notices go to the standard output as well.
A failure ends the run, with code 1 and a message on the standard error if errors of its kind are
handled; only what was written before it stays.
-/

namespace TagOutline.CommandLine

/-- What a run starts from and leaves behind: the files, the settings and the print level. -/
structure Program where
  workspace : Workspace
  settings : Settings
  printLevel : Int

/-- How work ends: what it has written on the standard output, and its error if there is one. -/
structure Ended where
  output : String
  result : Except RunError Unit

/-- What a run shows, and the code that it ends with, or the error that nothing has handled. -/
structure Shown where
  ending : Except RunError Nat
  output : String
  errors : String

/-- The program before its first run in a workspace. -/
def Program.start (w : Workspace) : Program :=
  ⟨w, .standard, Config.standard.printLevel⟩

/-- The message on the standard error. -/
def failureText (message : String) : String :=
  s!"\x1b[91m错误: {message}{Level.plainColour}\n"

/-- What is shown of the end of work. Errors that are handled are written on the standard error. -/
def Ended.shown (e : Ended) : Shown :=
  match e.result with
  | .ok () => ⟨.ok 0, e.output, ""⟩
  | .error error =>
    if error.kind.isHandled then ⟨.ok 1, e.output, failureText error.message⟩
    else ⟨.error error, e.output, ""⟩

/-- The code that a run ends with, if it does. -/
def Shown.code? (s : Shown) : Option Nat :=
  s.ending.toOption

/-- The settings and the print level of a run, if the configuration can be loaded, and the notices
of loading it. -/
def configure (h : Host) (a : Arguments) (p : Program) : Logged ConfigError Program :=
  let loaded :=
    Settings.load h.loader p.workspace (if a.configPath.isEmpty then none else some a.configPath)
  ⟨loaded.notices,
    loaded.result.map fun settings =>
      { p with
        settings :=
          { settings with
            config :=
              { settings.config with dialect := a.dialect.getD settings.config.dialect } }
        printLevel := if a.verbose then Level.rank .debug else settings.config.printLevel }⟩

/-- The outline of the files that the arguments ask for, with all notices. -/
def collect (h : Host) (a : Arguments) (p : Program) : Logged ModuleError (List Entity) :=
  let found :=
    moduleOutline h.parse p.settings.config.outlineOptions h.schedule p.workspace a.patterns
  match found.result with
  | .ok containers => ⟨found.notices ++ [.totalParsed containers.length], .ok containers⟩
  | .error _ => found

/-- The HTML of containers, one after another. -/
def htmlText (style : RenderStyle) (containers : List Entity) : Except MissingMember String :=
  (Entity.childrenHtml style none containers).map ("\n".intercalate ·)

def writeJson (a : Arguments) (p : Program) (shown : String) (containers : List Entity) :
    Program × Ended :=
  let dialect := p.settings.config.dialect
  if a.outputPath.isEmpty then
    (p, ⟨shown ++ Archive.savedText dialect containers ++ "\n", .ok ()⟩)
  else
    let (w, saved) := Archive.save p.workspace a.outputPath containers (.text dialect.name)
    ({ p with workspace := w }, ⟨shown, saved.mapError .save⟩)

def writeHtml (a : Arguments) (p : Program) (shown : String) (containers : List Entity) :
    Program × Ended :=
  match htmlText p.settings.config.renderStyle containers with
  | .error e => (p, ⟨shown, .error (.render e)⟩)
  | .ok html =>
    if a.outputPath.isEmpty then (p, ⟨shown ++ html ++ "\n", .ok ()⟩)
    else
      match p.workspace.writeText a.outputPath (html ++ "\n") with
      | .ok w => ({ p with workspace := w }, ⟨shown, .ok ()⟩)
      | .error e => (p, ⟨shown, .error (.file e)⟩)

/-- Writes an outline in the format that is asked for, behind what is shown already. -/
def write (a : Arguments) (p : Program) (shown : String) (containers : List Entity) :
    Program × Ended :=
  match a.format with
  | .json => writeJson a p shown containers
  | .html => writeHtml a p shown containers

/-- Does what the arguments ask for. -/
def runArguments (h : Host) (a : Arguments) (p : Program) : Program × Ended :=
  let configured := configure h a p
  let loading := Notice.shown p.printLevel configured.notices
  match configured.result with
  | .error e => (p, ⟨loading, .error (.config e)⟩)
  | .ok p =>
    let found := collect h a p
    let shown := loading ++ Notice.shown p.printLevel found.notices
    match found.result with
    | .error e => (p, ⟨shown, .error (.outline e)⟩)
    | .ok containers => write a p shown containers

/-- Runs a command line. -/
def run (h : Host) (texts : List String) (p : Program) : Program × Shown :=
  match parse texts with
  | .error e => (p, ⟨.ok 2, "", refusal e⟩)
  | .ok .help => (p, ⟨.ok 0, help, ""⟩)
  | .ok (.run a) =>
    let (p, ended) := runArguments h a p
    (p, ended.shown)

end TagOutline.CommandLine
