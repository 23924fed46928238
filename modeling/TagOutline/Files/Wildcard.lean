/-!
# Wildcards

Patterns for the names of files. `*` stands for any characters, `?` for any one, and brackets for
one of the characters between them, or, after `!`, for one that is not. A hyphen between two
characters in brackets stands for all from the one to the other. An opening bracket without a
closing one stands for itself.
-/

namespace TagOutline.Wildcard

/-- A piece of what stands between brackets: a character, or a hyphen that makes a range. -/
inductive SetPiece where
  | char (c : Char)
  | hyphen
  deriving DecidableEq

/-- Characters from one to another. -/
structure CharRange where
  low : Char
  high : Char
  deriving DecidableEq

/-- What a pattern is made of. -/
inductive Element where
  | many
  | one
  /-- A character in one of the ranges, or in none of them. -/
  | set (negated : Bool) (ranges : List CharRange)
  | literal (c : Char)
  deriving DecidableEq

/-- The character of a piece that stands by itself. -/
def SetPiece.toChar : SetPiece → Char
  | .char c => c
  | .hyphen => '-'

/-- The ranges that pieces make. -/
def rangesOf : List SetPiece → List CharRange
  | [] => []
  | a :: .hyphen :: b :: rest => ⟨a.toChar, b.toChar⟩ :: rangesOf rest
  | [a, .hyphen] => [⟨a.toChar, a.toChar⟩, ⟨'-', '-'⟩]
  | a :: rest => ⟨a.toChar, a.toChar⟩ :: rangesOf rest

/-- Cuts the text between brackets at the hyphens that can make a range. The characters next to a
hyphen are taken by its range, so the next such hyphen comes at least three characters later.
`skipped` characters at the start cannot be such hyphens. -/
def chunksFrom (current : List Char) (skipped : Nat) : List Char → List (List Char)
  | [] => [current.reverse]
  | c :: cs =>
    match skipped with
    | 0 => if c = '-' then current.reverse :: chunksFrom [] 2 cs else chunksFrom (c :: current) 0 cs
    | n + 1 => chunksFrom (c :: current) n cs

/-- A hyphen at the very end stands for itself. -/
def keepLastHyphen : List (List Char) → List (List Char)
  | [] => []
  | [chunk] => [chunk]
  | [chunk, []] => [chunk ++ ['-']]
  | chunk :: rest => chunk :: keepLastHyphen rest

/-- Drops the ranges that go backwards, from the last one on: the characters at both ends of such
a range are dropped with it. -/
def dropEmptyRanges : List (List Char) → List (List Char)
  | [] => []
  | chunk :: rest =>
    match dropEmptyRanges rest with
    | [] => [chunk]
    | next :: more =>
      match chunk.getLast?, next.head? with
      | some low, some high =>
        if high < low then (chunk.dropLast ++ next.drop 1) :: more else chunk :: next :: more
      | _, _ => chunk :: next :: more

/-- The pieces of chunks with a hyphen between two of them. -/
def piecesOf : List (List Char) → List SetPiece
  | [] => []
  | [chunk] => chunk.map .char
  | chunk :: rest => chunk.map .char ++ .hyphen :: piecesOf rest

/-- The element that the text between brackets stands for. -/
def setElement (stuff : List Char) : Element :=
  let skipped := if stuff.head? = some '!' then 2 else 1
  let chunks := dropEmptyRanges (keepLastHyphen (chunksFrom [] skipped stuff))
  match piecesOf chunks with
  | [] => .set false []
  | .char '!' :: rest => .set true (rangesOf rest)
  | pieces => .set false (rangesOf pieces)

/-- The length of the text between brackets after the opening one, if there is a closing one. A
closing bracket right at the start, or right after `!`, belongs to the text. -/
def setLength? (cs : List Char) : Option Nat :=
  let lead :=
    match cs with
    | '!' :: ']' :: _ => 2
    | '!' :: _ => 1
    | ']' :: _ => 1
    | _ => 0
  let inside := ((cs.drop lead).takeWhile (· ≠ ']')).length
  if lead + inside < cs.length then some (lead + inside) else none

/-- The elements of a pattern. -/
def elements : List Char → List Element
  | [] => []
  | c :: cs =>
    if c = '*' then .many :: elements cs
    else if c = '?' then .one :: elements cs
    else if c = '[' then
      match setLength? cs with
      | none => .literal c :: elements cs
      | some n => setElement (cs.take n) :: elements (cs.drop (n + 1))
    else .literal c :: elements cs
  termination_by cs => cs.length
  decreasing_by all_goals simp only [List.length_drop, List.length_cons]; omega

/-- Whether an element that stands for one character stands for this one. -/
def Element.accepts (e : Element) (c : Char) : Bool :=
  match e with
  | .many => true
  | .one => true
  | .literal d => c = d
  | .set negated ranges => (ranges.any fun r => r.low ≤ c && c ≤ r.high) != negated

/-- Whether elements stand for a name. -/
def matchElements : List Element → List Char → Bool
  | [], cs => cs.isEmpty
  | .many :: es, [] => matchElements es []
  | .many :: es, c :: cs => matchElements es (c :: cs) || matchElements (.many :: es) cs
  | _ :: _, [] => false
  | e :: es, c :: cs => e.accepts c && matchElements es cs
  termination_by es cs => es.length + cs.length

def matchesName (pattern name : String) : Bool :=
  matchElements (elements pattern.toList) name.toList

/-- Whether a text has any of the marks of a pattern. -/
def isPattern (s : String) : Bool :=
  s.toList.any fun c => c = '*' || c = '?' || c = '['

end TagOutline.Wildcard
