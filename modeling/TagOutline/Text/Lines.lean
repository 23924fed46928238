/-!
# Lines

A text is cut at each line feed, and only there. Texts that come from a file have their other line
ends turned into line feeds first.
-/

namespace TagOutline.Text

/-- The lines of a string: the pieces between its line feeds, one more than there are line feeds.
The empty string has none. -/
def lines (s : String) : List String :=
  if s.isEmpty then [] else (s.toList.splitOn '\n').map String.ofList

/-- A carriage return, with the line feed after it if there is one, becomes one line feed. -/
def unifyLineEnds : List Char → List Char
  | [] => []
  | '\r' :: '\n' :: cs => '\n' :: unifyLineEnds cs
  | c :: cs => (if c = '\r' then '\n' else c) :: unifyLineEnds cs

/-- The number of line feeds in a text. -/
def lineFeeds (cs : List Char) : Nat :=
  cs.count '\n'

end TagOutline.Text
