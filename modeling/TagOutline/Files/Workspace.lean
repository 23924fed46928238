import TagOutline.Data.Display
import TagOutline.Files.Path
import TagOutline.Text.Lines
import TagOutline.Text.Utf8

/-!
# Workspaces

The directory that the program works in, with all that is below it: directories, and files with
their bytes. Each item is known by its location, the names that lead to it; a location that starts
with `..` lies outside. Paths are followed part by part, and each part but the last has to lead to
a directory.

A file is written at one location and nothing else is touched, so the laws of `put` are all that is
needed to know what stays as it was.
-/

namespace TagOutline

/-- What stands at a location. -/
inductive Item where
  | directory
  | file (bytes : ByteArray)

/-- Two files are equal if they have the same bytes. -/
instance : DecidableEq Item
  | .directory, .directory => isTrue rfl
  | .directory, .file _ => isFalse nofun
  | .file _, .directory => isFalse nofun
  | .file a, .file b => decidable_of_iff (a.data = b.data) (by simp [ByteArray.ext_iff])

/-- Why something cannot be done with a path. -/
inductive PathFault where
  | missing
  | exists
  | notADirectory
  | isADirectory
  deriving DecidableEq, Repr

/-- A fault with the path that it was found at. -/
structure FileError where
  fault : PathFault
  path : String
  deriving DecidableEq

def PathFault.code : PathFault → Nat
  | .missing => 2
  | .exists => 17
  | .notADirectory => 20
  | .isADirectory => 21

def PathFault.wording : PathFault → String
  | .missing => "No such file or directory"
  | .exists => "File exists"
  | .notADirectory => "Not a directory"
  | .isADirectory => "Is a directory"

def FileError.message (e : FileError) : String :=
  s!"[Errno {e.fault.code}] {e.fault.wording}: {Text.quoted e.path}"

/-- The names that lead to an item. -/
abbrev Location :=
  List String

/-- The items of a workspace. -/
structure Workspace where
  items : List (Location × Item)
  deriving Inhabited

namespace Workspace

def empty : Workspace :=
  ⟨[]⟩

/-- The item that is recorded under a location. -/
def itemAt (l : Location) : List (Location × Item) → Option Item
  | [] => none
  | (k, i) :: rest => if l = k then some i else itemAt l rest

/-- What stands at a location. The working directory itself and those it lies in are
directories. -/
def item? (w : Workspace) (l : Location) : Option Item :=
  if l.all (· = "..") then some .directory else itemAt l w.items

/-- Puts an item at a location, in the place of the one that is there or behind all others. -/
def putItem (l : Location) (item : Item) : List (Location × Item) → List (Location × Item)
  | [] => [(l, item)]
  | (k, i) :: rest => if l = k then (k, item) :: rest else (k, i) :: putItem l item rest

def put (w : Workspace) (l : Location) (item : Item) : Workspace :=
  ⟨putItem l item w.items⟩

/-- The location that one more part of a path leads to. -/
def stepTo (l : Location) (part : String) : Location :=
  if part = "" ∨ part = "." then l
  else if part = ".." then (if l.all (· = "..") then l ++ [".."] else l.dropLast)
  else l ++ [part]

/-- Follows the parts of a path from a location on, and finds what stands at the end. -/
def follow (w : Workspace) (l : Location) (item : Item) :
    List String → Except PathFault (Location × Item)
  | [] => .ok (l, item)
  | part :: rest =>
    match item with
    | .file _ => .error .notADirectory
    | .directory =>
      match w.item? (stepTo l part) with
      | none => .error .missing
      | some next => w.follow (stepTo l part) next rest

/-- The parts that a path is followed by. An empty part leads nowhere else, so a path that starts
with a slash is followed from the working directory like any other. -/
def partsOf (path : String) : List String :=
  (Path.parts path.toList).map String.ofList

/-- What a path leads to. -/
def find (w : Workspace) (path : String) : Except PathFault (Location × Item) :=
  if path.isEmpty then .error .missing else w.follow [] .directory (partsOf path)

def hasPath (w : Workspace) (path : String) : Bool :=
  (w.find path).isOk

def isFile (w : Workspace) (path : String) : Bool :=
  match w.find path with
  | .ok (_, .file _) => true
  | _ => false

def isDirectory (w : Workspace) (path : String) : Bool :=
  match w.find path with
  | .ok (_, .directory) => true
  | _ => false

/-- The names of the items right below a location. -/
def namesIn (w : Workspace) (l : Location) : List String :=
  w.items.filterMap fun e =>
    if e.1.length = l.length + 1 ∧ e.1.dropLast = l ∧ e.1.getLast? ≠ some ".." then e.1.getLast?
    else none

/-- The names in the directory that a path leads to; none if it leads to no directory. -/
def list (w : Workspace) (path : String) : List String :=
  match w.find path with
  | .ok (l, .directory) => w.namesIn l
  | _ => []

def readBytes (w : Workspace) (path : String) : Except FileError ByteArray :=
  match w.find path with
  | .error fault => .error ⟨fault, path⟩
  | .ok (_, .directory) => .error ⟨.isADirectory, path⟩
  | .ok (_, .file bytes) => .ok bytes

/-- Where a path leads whose last part need not exist. The parts before it lead through directories.
A path that ends in a slash names a directory, and one that ends in `.` or `..` leads to one. -/
inductive Target where
  /-- A name in an existing directory. `slash` says that the path goes on with slashes. -/
  | named (l : Location) (slash : Bool)
  /-- The last part is no name, and the path leads to a directory that exists. -/
  | unnamed

/-- Where a path leads, without asking for what its last part names. -/
def target (w : Workspace) (path : String) : Except PathFault Target :=
  let cs := path.toList
  let named := Path.withoutSlashes cs
  let last := String.ofList (Path.lastPart named)
  let before := (Path.parts named).dropLast.map String.ofList
  if cs.isEmpty then .error .missing
  else if last = "" then .ok .unnamed
  else
    match w.follow [] .directory before with
    | .error fault => .error fault
    | .ok (_, .file _) => .error .notADirectory
    | .ok (l, .directory) =>
      if last = "." ∨ last = ".." then .ok .unnamed
      else .ok (.named (l ++ [last]) (named.length < cs.length))

/-- Where a file can be written: the location, if the path does not lead to a directory. -/
def fileTarget (w : Workspace) (path : String) : Except FileError Location :=
  match w.target path with
  | .error fault => .error ⟨fault, path⟩
  | .ok .unnamed => .error ⟨.isADirectory, path⟩
  | .ok (.named l slash) =>
    if slash ∨ w.item? l = some .directory then .error ⟨.isADirectory, path⟩ else .ok l

/-- Writes a file, in place of the one that the path led to if there was one. -/
def writeBytes (w : Workspace) (path : String) (bytes : ByteArray) : Except FileError Workspace :=
  match w.fileTarget path with
  | .error e => .error e
  | .ok l => .ok (w.put l (.file bytes))

def makeDirectory (w : Workspace) (path : String) : Except FileError Workspace :=
  match w.target path with
  | .error fault => .error ⟨fault, path⟩
  | .ok .unnamed => .error ⟨.exists, path⟩
  | .ok (.named l _) =>
    match w.item? l with
    | some _ => .error ⟨.exists, path⟩
    | none => .ok (w.put l .directory)

/-- Makes a directory and leaves all as it was if that fails. -/
def tryDirectory (w : Workspace) (path : String) : Workspace × Option FileError :=
  match w.makeDirectory path with
  | .ok w' => (w', none)
  | .error e => (w, some e)

/-- Makes a directory, and before it those that it lies in and that are missing. One that is there
by then, because the path comes back to it, counts as made. The fuel bounds the depth of the path,
so its length is enough. -/
def makeDirectoriesFrom (w : Workspace) (path : String) : Nat → Workspace × Option FileError
  | 0 => (w, none)
  | fuel + 1 =>
    let head := Path.directory (Path.trimmed path)
    let last := Path.baseName (Path.trimmed path)
    if head.isEmpty || last.isEmpty || w.hasPath head then w.tryDirectory path
    else
      let above := w.makeDirectoriesFrom head fuel
      match above.2.filter (·.fault ≠ .exists) with
      | some e => (above.1, some e)
      | none => if last = "." then (above.1, none) else above.1.tryDirectory path

/-- Makes a directory and those that it lies in. What was made before an error stays. -/
def makeDirectories (w : Workspace) (path : String) : Workspace × Option FileError :=
  w.makeDirectoriesFrom path (path.length + 1)

/-- The locations in front of a location, the shortest first. -/
def above (l : Location) : List Location :=
  (List.range l.length).tail.map fun n => l.take n

/-- Puts an item at a location and makes the directories in front of it. -/
def install (w : Workspace) (l : Location) (item : Item) : Workspace :=
  let dirs := (above l).filter fun d => (w.item? d).isNone
  (dirs.foldl (fun w d => w.put d .directory) w).put l item

/-- A location as it is listed: a directory ends in a slash. -/
def listedName (l : Location) (item : Item) : String :=
  let path := "/".intercalate l
  match item with
  | .directory => path ++ "/"
  | .file _ => path

/-- All items inside the working directory by their listed names, in the order of the names. -/
def listing (w : Workspace) : List (String × Item) :=
  let inside := w.items.filter fun e => e.1.head? ≠ some ".."
  (inside.map fun e => (listedName e.1 e.2, e.2)).mergeSort fun a b => a.1 ≤ b.1

/-- The items of a later state of a workspace that an earlier one does not have, or has otherwise.
-/
def changesSince (later earlier : Workspace) : List (Location × Item) :=
  later.items.filter fun e => itemAt e.1 earlier.items ≠ some e.2

/-- What was put at a location is found there. -/
@[simp] theorem itemAt_put_self (w : Workspace) (l : Location) (item : Item) :
    itemAt l (w.put l item).items = some item := by
  have h (items : List (Location × Item)) : itemAt l (putItem l item items) = some item := by
    induction items with
    | nil => simp [putItem, itemAt]
    | cons e es ih => by_cases hl : l = e.1 <;> simp [putItem, itemAt, hl, ih]
  exact h w.items

/-- Putting an item at one location leaves the others as they are. -/
theorem itemAt_put_of_ne (w : Workspace) {l k : Location} (item : Item) (h : k ≠ l) :
    itemAt k (w.put l item).items = itemAt k w.items := by
  have h' (items : List (Location × Item)) : itemAt k (putItem l item items) = itemAt k items := by
    induction items with
    | nil => simp [putItem, itemAt, h]
    | cons e es ih =>
      by_cases hl : l = e.1
      · simp [putItem, itemAt, ← hl, h]
      · simp [putItem, itemAt, hl, ih]
  exact h' w.items

end Workspace

end TagOutline
