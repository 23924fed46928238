import TagOutline.Files.Workspace

/-!
# Text files

Files read and written as UTF-8 text. All line ends of a text that is read are line feeds; a text
that is written keeps its own.
-/

namespace TagOutline

/-- Why a text cannot be read from a path. -/
inductive TextFileError where
  | file (error : FileError)
  | encoding (fault : Text.Utf8.Fault)

def TextFileError.message : TextFileError → String
  | .file error => error.message
  | .encoding fault => fault.message

namespace Workspace

/-- The text of the file that a path leads to. -/
def readText (w : Workspace) (path : String) : Except TextFileError String :=
  match w.readBytes path with
  | .error e => .error (.file e)
  | .ok bytes =>
    match Text.Utf8.decode bytes with
    | .error fault => .error (.encoding fault)
    | .ok s => .ok (String.ofList (Text.unifyLineEnds s.toList))

def writeText (w : Workspace) (path text : String) : Except FileError Workspace :=
  w.writeBytes path (Text.Utf8.encode text)

end Workspace

end TagOutline
