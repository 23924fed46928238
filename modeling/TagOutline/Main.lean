import TagOutline.CommandLine.Run
import TagOutline.CommandLine.Standard

/-!
# The program

The outer layer of the command line: it takes stock of the working directory, runs the arguments on
that, writes what changed, and prints. A path that leads out of the working directory leads nowhere
here, and links are not followed.
-/

namespace TagOutline

/-- Adds what an entry of the directory at a location holds to the items found so far. -/
partial def addEntry (l : Location) (found : List (Location × Item)) (entry : IO.FS.DirEntry) :
    IO (List (Location × Item)) := do
  let here := l ++ [entry.fileName]
  match (← entry.path.symlinkMetadata).type with
  | .dir => (← entry.path.readDir).foldlM (addEntry here) ((here, .directory) :: found)
  | .file => return (here, .file (← IO.FS.readBinFile entry.path)) :: found
  | _ => return found

/-- The workspace that the working directory is now. -/
def takeStock : IO Workspace := do
  return ⟨← (← (← IO.currentDir).readDir).foldlM (addEntry []) []⟩

/-- Makes a directory or writes a file in the working directory. -/
def store (l : Location) (item : Item) : IO Unit :=
  let path := "/".intercalate l
  match item with
  | .directory => IO.FS.createDirAll path
  | .file bytes => IO.FS.writeBinFile path bytes

end TagOutline

open TagOutline in
/-- Runs a command line in the working directory and answers with the exit code. -/
def main (args : List String) : IO UInt32 := do
  let before ← takeStock
  let (after, shown) := CommandLine.run .standard args (.start before)
  for (l, item) in after.workspace.changesSince before do
    store l item
  IO.print shown.output
  IO.eprint shown.errors
  match shown.ending with
  | .ok code => return UInt32.ofNat code
  | .error e => throw (IO.userError e.message)
