import TagOutline.Files.Glob
import TagOutline.Files.Text
import TagOutline.Outline.Script
import TagOutline.Pool

/-!
# Outlines of modules

A module is a set of script files given by patterns. Its outline is that of its files, one after
another. The files are read by a pool of workers: several of them at a time, by a schedule that is
not up to the program. If one of them fails, the first error that comes up counts. What a file gives
does not depend on the others.
-/

namespace TagOutline

/-- Why a file has no outline. -/
inductive ModuleError where
  | unreadable (error : TextFileError)
  | outline (error : OutlineError)

def ModuleError.message : ModuleError → String
  | .unreadable error => error.message
  | .outline error => error.message

/-- What is told at the end of reading a file: how many containers it has, or why it has no
structure. -/
def fileNotices {α : Type} (path : String) : Except OutlineError (List α) → List Notice
  | .ok containers => [.fileParsed path containers.length]
  | .error (.orphanChild line content) =>
    [.fileFailed path (OutlineError.orphanChild line content).message]
  | .error (.childless _) => []

/-- What `read` finds in the script at a path. -/
def findInFile {α : Type} (read : String → Logged OutlineError (List α)) (w : Workspace)
    (path : String) : Logged ModuleError (List α) :=
  match w.readText path with
  | .error e => .ofExcept (.error (.unreadable e))
  | .ok text =>
    let found := read text
    ⟨found.notices ++ fileNotices path found.result, found.result.mapError .outline⟩

/-- What `read` finds in the scripts at several paths, read by a schedule. -/
def findInFiles {α : Type} (read : String → Logged OutlineError (List α)) (σ : Schedule)
    (w : Workspace) (paths : List String) : Logged ModuleError (List α) := do
  let result ← Pool.run Logged.worker σ (paths.map (findInFile read w))
  .ofExcept result

/-- What `read` finds in the scripts that patterns match. -/
def findInModule {α : Type} (read : String → Logged OutlineError (List α)) (σ : Schedule)
    (w : Workspace) (patterns : List String) : Logged ModuleError (List α) :=
  let (notices, paths) := Glob.expand w patterns
  let found := findInFiles read σ w paths
  ⟨notices ++ found.notices, found.result⟩

section

variable (parse : ByteArray → Script.SyntaxNode) (options : OutlineOptions)

/-- The outline of the script at a path. -/
def fileOutline (w : Workspace) (path : String) : Logged ModuleError (List Entity) :=
  findInFile (scriptOutline parse options) w path

/-- The outline of the scripts that patterns match. -/
def moduleOutline (σ : Schedule) (w : Workspace) (patterns : List String) :
    Logged ModuleError (List Entity) :=
  findInModule (scriptOutline parse options) σ w patterns

end

end TagOutline
