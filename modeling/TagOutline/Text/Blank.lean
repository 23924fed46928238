/-!
# Blank characters

The whitespace that separates the parts of a tag line, and trimming by it. `trim` removes the
longest blank run at either end and nothing else, so its result starts and ends with a character
that is not blank, or is empty.
-/

namespace TagOutline.Text

/-- The blank characters: the ASCII spaces and separators U+0009 to U+000D and U+001C to U+0020,
NEL, and the Unicode space separators with the line and paragraph separators. -/
def isBlank (c : Char) : Bool :=
  let n := c.toNat
  (0x09 ≤ n && n ≤ 0x0D) || (0x1C ≤ n && n ≤ 0x20) || n == 0x85 || n == 0xA0 || n == 0x1680 ||
    (0x2000 ≤ n && n ≤ 0x200A) || n == 0x2028 || n == 0x2029 || n == 0x202F || n == 0x205F ||
    n == 0x3000

/-- Without the blanks at the start. -/
def trimStart (cs : List Char) : List Char :=
  cs.dropWhile isBlank

/-- Without the blanks at the end. -/
def trimEnd : List Char → List Char
  | [] => []
  | c :: cs =>
    match trimEnd cs with
    | [] => if isBlank c then [] else [c]
    | d :: ds => c :: d :: ds

/-- Without the blanks at either end. -/
def trim (cs : List Char) : List Char :=
  trimEnd (trimStart cs)

/-- `trim` on a string. -/
def trimmed (s : String) : String :=
  String.ofList (trim s.toList)

end TagOutline.Text
