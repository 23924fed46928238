import TagOutline.Data.Display
import TagOutline.Text.Quoted

/-!
# Writing JSON

`Json.write` writes a value on one line, or, given an indent, with one item or field per line. Only
what JSON requires is escaped; other characters are written as they are. Keys that are not texts
are written as the text of their value.
-/

namespace TagOutline.Json

/-- One character inside a string. -/
def escapeChar (c : Char) : List Char :=
  if c = '"' then ['\\', '"']
  else if c = '\\' then ['\\', '\\']
  else if c = '\n' then ['\\', 'n']
  else if c = '\r' then ['\\', 'r']
  else if c = '\t' then ['\\', 't']
  else if c = '\x08' then ['\\', 'b']
  else if c = '\x0c' then ['\\', 'f']
  else if c.toNat < 0x20 then '\\' :: 'u' :: Text.hexDigits 4 c.toNat
  else [c]

def writeString (s : String) : List Char :=
  '"' :: s.toList.flatMap escapeChar ++ ['"']

def writeBool (b : Bool) : String :=
  if b then "true" else "false"

/-- A float, by the words of this format if it is not finite. -/
def writeFloat (x : Binary64) : String :=
  x.text "NaN" "Infinity"

/-- The text that a key is written as. -/
def keyText : Key → String
  | .null => "null"
  | .bool b => writeBool b
  | .int n => decimal n
  | .float x => writeFloat x
  | .text s => s

/-- How items are laid out: all on one line, or each on its own line, so many blanks further in
than what holds it. -/
inductive Layout where
  | line
  | block (indent : Nat)
  deriving DecidableEq

/-- The layout for an optional indent. A negative one counts as zero. -/
def Layout.ofIndent? : Option Int → Layout
  | none => .line
  | some n => .block n.toNat

/-- A line break and the blanks in front of what stands at `depth`. -/
def Layout.newline (layout : Layout) (depth : Nat) : List Char :=
  match layout with
  | .line => []
  | .block indent => '\n' :: List.replicate (indent * depth) ' '

/-- What separates two items at `depth`. -/
def Layout.separator (layout : Layout) (depth : Nat) : List Char :=
  match layout with
  | .line => [',', ' ']
  | .block _ => ',' :: layout.newline depth

mutual

/-- A value at `depth`. -/
def writeValue (layout : Layout) (depth : Nat) : Value → List Char
  | .null => "null".toList
  | .bool b => (writeBool b).toList
  | .int n => (decimal n).toList
  | .float x => (writeFloat x).toList
  | .text s => writeString s
  | .list [] => ['[', ']']
  | .list (x :: xs) =>
    '[' :: layout.newline (depth + 1) ++ writeValue layout (depth + 1) x ++
      writeItems layout (depth + 1) xs ++ layout.newline depth ++ [']']
  | .record [] => ['\x7b', '\x7d']
  | .record ((k, x) :: fs) =>
    '\x7b' :: layout.newline (depth + 1) ++ writeString (keyText k) ++ [':', ' '] ++
      writeValue layout (depth + 1) x ++ writeMembers layout (depth + 1) fs ++
      layout.newline depth ++ ['\x7d']

/-- The items of a list after the first. -/
def writeItems (layout : Layout) (depth : Nat) : List Value → List Char
  | [] => []
  | x :: xs => layout.separator depth ++ writeValue layout depth x ++ writeItems layout depth xs

/-- The fields of a record after the first. -/
def writeMembers (layout : Layout) (depth : Nat) : List (Key × Value) → List Char
  | [] => []
  | (k, x) :: fs =>
    layout.separator depth ++ writeString (keyText k) ++ [':', ' '] ++
      writeValue layout depth x ++ writeMembers layout depth fs

end

/-- The JSON text of a value. -/
def write (indent : Option Int) (v : Value) : String :=
  String.ofList (writeValue (.ofIndent? indent) 0 v)

end TagOutline.Json
