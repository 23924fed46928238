import TagOutline.Archive.Store
import TagOutline.Config.Settings
import TagOutline.Entity.Html
import TagOutline.Outline.Module

/-!
# Errors of runs

Why a run fails. Errors come in kinds. Most kinds are handled: they are turned into a message, and
the run ends with a code. An error of any other kind ends the whole program.
-/

namespace TagOutline

/-- The kinds of errors that the parts of a run end with. -/
inductive ErrorKind where
  /-- Tags that do not make up an outline. -/
  | analysis
  /-- Files and directories that cannot be read, made or written. -/
  | system
  /-- Texts and values that are not what they have to be. -/
  | value
  /-- Members that a class does not have. -/
  | member
  /-- Texts that are nested too deep to be read. -/
  | recursion
  deriving DecidableEq

/-- Whether errors of a kind are turned into a message. -/
def ErrorKind.isHandled : ErrorKind → Bool
  | .analysis => true
  | .system => true
  | .value => true
  | .member => false
  | .recursion => false

def TextFileError.kind : TextFileError → ErrorKind
  | .file _ => .system
  | .encoding _ => .value

def Json.Fault.kind (fault : Fault) : ErrorKind :=
  if fault.cause.isTooDeep then .recursion else .value

def ConfigError.kind : ConfigError → ErrorKind
  | .unreadable error => error.kind
  | .syntactic _ fault => fault.kind
  | .invalid _ => .value

def OutlineError.kind : OutlineError → ErrorKind
  | .orphanChild .. => .analysis
  | .childless _ => .member

def ModuleError.kind : ModuleError → ErrorKind
  | .unreadable error => error.kind
  | .outline error => error.kind

def Archive.SaveError.kind : SaveError → ErrorKind
  | .file .. => .system
  | .dialect _ => .value

namespace CommandLine

/-- Why a run fails. -/
inductive RunError where
  | config (error : ConfigError)
  | outline (error : ModuleError)
  | save (error : Archive.SaveError)
  | file (error : FileError)
  | render (error : MissingMember)

def RunError.message : RunError → String
  | .config error => error.message
  | .outline error => error.message
  | .save error => error.message
  | .file error => error.message
  | .render error => error.message

def RunError.kind : RunError → ErrorKind
  | .config error => error.kind
  | .outline error => error.kind
  | .save error => error.kind
  | .file _ => .system
  | .render _ => .member

end CommandLine

end TagOutline
