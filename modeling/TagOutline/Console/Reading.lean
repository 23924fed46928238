import TagOutline.Config.Settings
import TagOutline.Console.Work
import TagOutline.Outline.Module

/-!
# Reading at a console

Texts, scripts, files and modules are read, patterns are expanded and settings are loaded at a
console that is told each notice at once. The files of a module are read by a pool of workers.
-/

namespace TagOutline.Console

variable {σ ε α : Type}

def openContainer (t : Tag) : Work Parser OutlineError Unit := do
  change Parser.close
  say (.containerOpened t.line t.value)
  change fun p => { p with focus := .container (.new t.value) }

def openChild (t : Tag) : Work Parser OutlineError Unit := do
  let p ← data
  match p.focus with
  | .none => throw (.orphanChild t.line (Text.trimmed (p.source.line t.line)))
  | focus =>
    if p.options.containerClass.isContainer then
      change fun p => { p with focus := focus.openChild t.value }
    else throw (.childless ⟨p.options.containerClass, "add_child"⟩)

def writeAttribute (t : Tag) : Work Parser OutlineError Unit := do
  let p ← data
  match p.focus with
  | .none => say (.strayAttribute t.line t.key)
  | focus => change fun p => { p with focus := focus.write (t.key, t.value) }

def takeTag (t : Tag) : Work Parser OutlineError Unit := do
  change fun p => { p with source := p.source.readTo t }
  let p ← data
  match p.options.role t.key with
  | .opensContainer => openContainer t
  | .opensChild => openChild t
  | .bare => say (.bareSigil t.line)
  | .attribute => writeAttribute t

def takeTags : List Tag → Work Parser OutlineError Unit
  | [] => change Parser.finish
  | t :: ts => do
    takeTag t
    takeTags ts

/-- Takes all that is left of the text of a parser. -/
def takeAll : Work Parser OutlineError (List Entity) := do
  let p ← data
  takeTags p.source.ahead
  let p ← data
  return p.entities

/-- Reads a text by a parser of its own. -/
def parse (o : OutlineOptions) (text : String) : Work σ OutlineError (List Entity) :=
  within (Parser.ofText o text) takeAll

def parseTexts (o : OutlineOptions) : List String → Work σ OutlineError (List Entity)
  | [] => return []
  | text :: texts => do
    let first ← parse o text
    let others ← parseTexts o texts
    return first ++ others

/-- Tells that a file is no outline. -/
def report (path : String) : OutlineError → Work σ OutlineError Unit
  | .orphanChild line content =>
    say (.fileFailed path (OutlineError.orphanChild line content).message)
  | .childless _ => return ()

section

variable (tree : ByteArray → Script.SyntaxNode) (o : OutlineOptions)

def parseScript (text : String) : Work σ OutlineError (List Entity) :=
  parseTexts o (Script.blockComments tree text)

/-- Reads a script that may be no outline, and tells so. -/
def parseReported (path text : String) : Work σ OutlineError (List Entity) := do
  tryCatch (parseScript tree o text) fun error => do
    report path error
    throw error

def parseFile (w : Workspace) (path : String) : Work σ ModuleError (List Entity) := do
  let text ← check ((w.readText path).mapError .unreadable)
  let containers ← ExceptT.adapt ModuleError.outline (parseReported tree o path text)
  say (.fileParsed path containers.length)
  return containers

end

def expandFrom (w : Workspace) (seen : List String) : List String → Work σ ε (List String)
  | [] => return seen
  | pattern :: patterns => do
    if (Glob.paths w pattern).isEmpty then
      say (.patternUnmatched pattern)
      expandFrom w seen patterns
    else expandFrom w (Glob.appendNew seen (Glob.files w pattern)) patterns

def expand (w : Workspace) (patterns : List String) : Work σ ε (List String) :=
  expandFrom w [] patterns

/-- Reads the files that patterns match, by a schedule. -/
def parseModule (tree : ByteArray → Script.SyntaxNode) (o : OutlineOptions) (schedule : Schedule)
    (w : Workspace) (patterns : List String) : Work σ ModuleError (List Entity) := do
  let paths ← expand w patterns
  let result ← lift <| Pool.run Steps.worker schedule <|
    paths.map fun path => job () (parseFile tree o w path)
  check result

def loadFile (l : Loader) (w : Workspace) (path : String) :
    Work Settings ConfigError Settings := do
  let config ← check (Settings.readConfig l w path)
  change fun _ => ⟨config, path⟩
  say (.configLoaded path)
  data

def loadSettings (l : Loader) (w : Workspace) (path : Option String) :
    Work Settings ConfigError Settings := do
  match path with
  | some path => loadFile l w path
  | none =>
    if w.hasPath Settings.standardPath then loadFile l w Settings.standardPath
    else
      say .configMissing
      change fun _ => .standard
      data

end TagOutline.Console
