import TagOutline.Data.Value
import TagOutline.Number.Shortest
import TagOutline.Text.Quoted

/-!
# Displayed values

How a value looks in a message or in rendered output. A text by itself is shown as it is; inside a
list or a record, and in a message, it is quoted.
-/

namespace TagOutline

/-- The decimal text of an integer. -/
def decimal (n : Int) : String :=
  String.ofList (if n < 0 then '-' :: Nat.toDigits 10 n.natAbs else Nat.toDigits 10 n.natAbs)

namespace Value

def boolWord (b : Bool) : String :=
  if b then "True" else "False"

/-- The display of a float. -/
def floatText (x : Binary64) : String :=
  x.text "nan" "inf"

/-- A key with its text quoted. -/
def literalKey : Key → String
  | .null => "None"
  | .bool b => boolWord b
  | .int n => decimal n
  | .float x => floatText x
  | .text s => Text.quoted s

mutual

/-- A value with its texts quoted. -/
def literal : Value → String
  | .null => "None"
  | .bool b => boolWord b
  | .int n => decimal n
  | .float x => floatText x
  | .text s => Text.quoted s
  | .list items => "[" ++ ", ".intercalate (literalItems items) ++ "]"
  | .record fields => "\x7b" ++ ", ".intercalate (literalFields fields) ++ "\x7d"

def literalItems : List Value → List String
  | [] => []
  | x :: xs => literal x :: literalItems xs

def literalFields : List (Key × Value) → List String
  | [] => []
  | (k, x) :: fs => (literalKey k ++ ": " ++ literal x) :: literalFields fs

end

/-- A value as it is shown by itself: a text as it is, anything else as its literal. -/
def plain : Value → String
  | .text s => s
  | v => v.literal

/-- A key as it is shown by itself. -/
def plainKey (k : Key) : String :=
  (ofKey k).plain

end Value

end TagOutline
