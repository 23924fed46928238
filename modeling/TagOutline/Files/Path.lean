/-!
# Paths

Paths as texts, with `/` between their parts. These functions look at the text of a path only, not
at what it leads to.
-/

namespace TagOutline.Path

/-- The parts of a path between its slashes; some may be empty. -/
def parts (cs : List Char) : List (List Char) :=
  cs.splitOn '/'

/-- Without the slashes at the end. -/
def withoutSlashes (cs : List Char) : List Char :=
  (cs.reverse.dropWhile (· = '/')).reverse

/-- What follows the last slash. -/
def lastPart (cs : List Char) : List Char :=
  (cs.reverse.takeWhile (· ≠ '/')).reverse

/-- What precedes the last part, without the slashes at its end unless it holds nothing else. -/
def leadingPart (cs : List Char) : List Char :=
  let head := (cs.reverse.dropWhile (· ≠ '/')).reverse
  if head.all (· = '/') then head else withoutSlashes head

/-- The last part of a path. -/
def baseName (path : String) : String :=
  String.ofList (lastPart path.toList)

/-- The path that leads to the last part. -/
def directory (path : String) : String :=
  String.ofList (leadingPart path.toList)

/-- A path that ends in a slash cut in front of it, so that its last part is a name. -/
def trimmed (path : String) : String :=
  if (baseName path).isEmpty then directory path else path

/-- A path followed from another one. A path that starts with a slash is followed from nowhere. -/
def join (start path : String) : String :=
  if path.startsWith "/" then path
  else if start.isEmpty || start.endsWith "/" then start ++ path
  else start ++ "/" ++ path

/-- A file name without its extension, which begins at the last point. Points at the start of a name
begin no extension. -/
def stem (name : String) : String :=
  let cs := name.toList
  let points := cs.takeWhile (· = '.')
  let named := cs.dropWhile (· = '.')
  let head := (named.reverse.dropWhile (· ≠ '.')).reverse
  if head.isEmpty then name else String.ofList (points ++ head.dropLast)

/-- Adds a part to the parts of a normalised path, of which the last stands first. -/
def pushPart (rooted : Bool) (done : List String) (part : String) : List String :=
  if part = "" ∨ part = "." then done
  else if part = ".." then
    match done with
    | [] => if rooted then [] else [part]
    | last :: before => if last = ".." then part :: done else before
  else part :: done

/-- The slashes that stay in front of a path: one, or two if there are exactly two. -/
def rootSlashes (cs : List Char) : String :=
  match cs with
  | '/' :: '/' :: '/' :: _ => "/"
  | '/' :: '/' :: _ => "//"
  | '/' :: _ => "/"
  | _ => ""

/-- A path without empty parts and single points, and without the parts that a double point goes
back over. -/
def normalized (path : String) : String :=
  let root := rootSlashes path.toList
  let names := (parts path.toList).map String.ofList
  let kept := (names.foldl (pushPart (!root.isEmpty)) []).reverse
  let text := root ++ "/".intercalate kept
  if text.isEmpty then "." else text

end TagOutline.Path
