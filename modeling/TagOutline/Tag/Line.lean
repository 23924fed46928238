import TagOutline.Data.Display
import TagOutline.Text.Blank

/-!
# Tag lines

A tag line starts, after blanks, with the sigil `@`. Its key is what follows the sigil up to the
first blank, and its value is the rest of the line without the blanks around it. Key and value may
both be empty; every other line is no tag line and holds nothing.
-/

namespace TagOutline

/-- A key and a value, and the number of the line that they stand on. -/
structure Tag where
  key : String
  value : String
  line : Int
  deriving DecidableEq, Inhabited

namespace Tag

/-- The character that starts a tag. -/
def sigil : Char :=
  '@'

/-- Not a blank: a character that a key can have. -/
def isKeyChar (c : Char) : Bool :=
  !Text.isBlank c

/-- The tag on a line, if it is a tag line. -/
def ofLine? (text : String) (line : Int) : Option Tag :=
  match Text.trim text.toList with
  | '@' :: rest =>
    some
      { key := String.ofList (rest.takeWhile isKeyChar)
        value := String.ofList (Text.trim (rest.dropWhile isKeyChar))
        line }
  | _ => none

/-- Whether two tags say the same. Where they stand does not count. -/
def agrees (a b : Tag) : Bool :=
  a.key = b.key && a.value = b.value

/-- The tag as it is shown in a listing. -/
def describe (t : Tag) : String :=
  s!"Token({Text.quoted t.key}, {Text.quoted t.value}, {decimal t.line})"

end Tag

end TagOutline
