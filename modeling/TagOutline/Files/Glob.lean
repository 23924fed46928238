import TagOutline.Files.Wildcard
import TagOutline.Files.Workspace
import TagOutline.Notice

/-!
# Path patterns

The paths of a workspace that a pattern matches. The last part of a pattern is matched against the
names in each directory that the parts before it match; a part `**` matches any number of
directories, and as the last part everything in them. A name that starts with a point is matched
only by a part that starts with one.
-/

namespace TagOutline.Glob

def isHidden (name : String) : Bool :=
  name.startsWith "."

/-- The part that matches directories of any depth. -/
def isDeep (part : String) : Bool :=
  part == "**"

/-- Two paths joined where either may be empty. -/
def joinEither (start path : String) : String :=
  if start.isEmpty then path else if path.isEmpty then start else Path.join start path

/-- The path of a directory that can be listed: the empty path is the working directory. -/
def listedPath (directory : String) : String :=
  if directory.isEmpty then "." else directory

/-- The names in a directory, or only those of directories. -/
def namesOf (w : Workspace) (directory : String) (directoriesOnly : Bool) : List String :=
  (w.list (listedPath directory)).filter fun name =>
    !directoriesOnly || w.isDirectory (joinEither directory name)

/-- The names in a directory that a pattern matches. -/
def matchesIn (w : Workspace) (directory pattern : String) (directoriesOnly : Bool) :
    List String :=
  (namesOf w directory directoriesOnly).filter fun name =>
    (isHidden pattern || !isHidden name) && Wildcard.matchesName pattern name

/-- A plain name, if it is there. Without a name, the directory itself is meant. -/
def plainIn (w : Workspace) (directory name : String) : List String :=
  let found :=
    if name.isEmpty then w.isDirectory directory else w.hasPath (joinEither directory name)
  if found then [name] else []

/-- Everything below a directory that is not hidden, down to `depth` levels. -/
def below (w : Workspace) (directory : String) (directoriesOnly : Bool) : Nat → List String
  | 0 => []
  | depth + 1 =>
    ((namesOf w directory directoriesOnly).filter fun name => !isHidden name).flatMap fun name =>
      name :: (below w (joinEither directory name) directoriesOnly depth).map (joinEither name)

/-- A directory itself, as the empty path, and everything below it. -/
def deepIn (w : Workspace) (directory : String) (directoriesOnly : Bool) : List String :=
  (if directory.isEmpty || w.isDirectory directory then [""] else []) ++
    below w directory directoriesOnly (w.items.length + 1)

/-- What the last part of a pattern matches in a directory. -/
def lastIn (w : Workspace) (directory part : String) (directoriesOnly : Bool) : List String :=
  if isDeep part then deepIn w directory directoriesOnly
  else if Wildcard.isPattern part then matchesIn w directory part directoriesOnly
  else plainIn w directory part

/-- The paths that a pattern matches. Each step takes off the last part of the pattern, so its
length is fuel enough. -/
def pathsFrom (w : Workspace) (directoriesOnly : Bool) : Nat → String → List String
  | 0, _ => []
  | fuel + 1, pattern =>
    let directory := Path.directory pattern
    let part := Path.baseName pattern
    if !Wildcard.isPattern pattern then
      let found := if part.isEmpty then w.isDirectory directory else w.hasPath pattern
      if found then [pattern] else []
    else if directory.isEmpty then lastIn w "" part directoriesOnly
    else
      let directories :=
        if Wildcard.isPattern directory then pathsFrom w true fuel directory else [directory]
      directories.flatMap fun d => (lastIn w d part directoriesOnly).map (Path.join d)

/-- The paths that a pattern matches. The working directory itself is not one of them. -/
def paths (w : Workspace) (pattern : String) : List String :=
  match pathsFrom w false (pattern.length + 1) pattern with
  | "" :: rest => rest
  | found => found

/-- The matched paths in order. -/
def sortedPaths (w : Workspace) (pattern : String) : List String :=
  (paths w pattern).mergeSort fun a b => a ≤ b

/-- The paths of the files that a pattern matches, normalised, in the order of the matched
paths. -/
def files (w : Workspace) (pattern : String) : List String :=
  ((sortedPaths w pattern).filter w.isFile).map Path.normalized

/-- Appends the paths that are not there yet. -/
def appendNew (seen : List String) : List String → List String
  | [] => seen
  | p :: ps => if seen.contains p then appendNew seen ps else appendNew (seen ++ [p]) ps

/-- The files that patterns match, each once, in the order of the patterns. -/
def expandFrom (w : Workspace) (seen : List String) : List String → List Notice × List String
  | [] => ([], seen)
  | pattern :: patterns =>
    if (paths w pattern).isEmpty then
      let (notices, found) := expandFrom w seen patterns
      (.patternUnmatched pattern :: notices, found)
    else expandFrom w (appendNew seen (files w pattern)) patterns

/-- The files that patterns match, with a notice for each pattern that matches nothing. -/
def expand (w : Workspace) (patterns : List String) : List Notice × List String :=
  expandFrom w [] patterns

end TagOutline.Glob
