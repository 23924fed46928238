import TagOutline.Archive.Document
import TagOutline.Files.Text
import TagOutline.Json.Reader
import TagOutline.Json.Writer

/-!
# The archive of outlines

Outlines saved to JSON files and loaded again. Saving makes the directories that are missing and
empties the file before it writes, so a save that fails for want of a dialect leaves an empty file.
Loading a path that leads nowhere gives an empty outline.
-/

namespace TagOutline.Archive

/-- Why an outline cannot be saved. -/
inductive SaveError where
  | file (path : String) (error : FileError)
  | dialect (error : UnknownDialect)

def SaveError.message : SaveError → String
  | .file path error => s!"保存解析结果失败 [{path}]: {error.message}"
  | .dialect error => error.message

/-- Why an outline cannot be loaded. -/
inductive LoadError where
  | unreadable (error : TextFileError)
  | syntactic (text : String) (fault : Json.Fault)
  | document (error : DocumentError)

def LoadError.message : LoadError → String
  | .unreadable error => error.message
  | .syntactic text fault => fault.message text
  | .document error => error.message

/-- The path of the file for the outline of a source file: named after it, in a directory. -/
def pathFor (directory source : String) : String :=
  Path.join directory (Path.stem (Path.baseName source) ++ "_nodes.json")

/-- The text that an outline is saved as. -/
def savedText (dialect : Dialect) (containers : List Entity) : String :=
  Json.write (some 2) (document dialect containers)

/-- Makes the directories that a path needs. -/
def prepare (w : Workspace) (path : String) : Workspace × Option FileError :=
  let directory := Path.directory path
  if directory.isEmpty || w.hasPath directory then (w, none) else w.makeDirectories directory

/-- Saves an outline in the dialect that a value names. -/
def save (w : Workspace) (path : String) (containers : List Entity) (dialect : Value) :
    Workspace × Except SaveError Unit :=
  match prepare w path with
  | (w, some e) => (w, .error (.file path e))
  | (w, none) =>
    match w.writeText path "" with
    | .error e => (w, .error (.file path e))
    | .ok emptied =>
      match Dialect.ofValue dialect with
      | .error e => (emptied, .error (.dialect e))
      | .ok dialect =>
        match emptied.writeText path (savedText dialect containers) with
        | .error e => (emptied, .error (.file path e))
        | .ok written => (written, .ok ())

/-- Loads an outline. -/
def load (w : Workspace) (path : String) : Except LoadError (List Entity) :=
  if !w.hasPath path then .ok []
  else
    match w.readText path with
    | .error e => .error (.unreadable e)
    | .ok text =>
      match Json.read text with
      | .error fault => .error (.syntactic text fault)
      | .ok v => (ofDocument v).mapError .document

end TagOutline.Archive
