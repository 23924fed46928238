import TagOutline.Data.Value

/-!
# Reading JSON

`Json.read` reads a JSON text as a value. Besides the standard's values it accepts `NaN`,
`Infinity` and `-Infinity`. A number with neither fraction nor exponent is an integer, of no more
digits than `TagOutline.maxDigits`. Where an object names a field twice, the first place and the
last value count. `Json.readWithin` is the same for a reader that has room for so many lists and
objects inside each other only.

A fault says what was expected and how many characters were left; its place is counted from that.
-/

namespace TagOutline.Json

/-- Why a text is not JSON. -/
inductive Cause where
  | expectedValue
  | expectedName
  | expectedColon
  | expectedComma
  | extraData
  | controlCharacter
  | unterminatedString
  | badUnicodeEscape
  | badEscape
  | byteOrderMark
  | tooManyDigits (count : Nat)
  | tooDeepList
  | tooDeepObject
  deriving DecidableEq

def Cause.message : Cause → String
  | .expectedValue => "Expecting value"
  | .expectedName => "Expecting property name enclosed in double quotes"
  | .expectedColon => "Expecting ':' delimiter"
  | .expectedComma => "Expecting ',' delimiter"
  | .extraData => "Extra data"
  | .controlCharacter => "Invalid control character at"
  | .unterminatedString => "Unterminated string starting at"
  | .badUnicodeEscape => "Invalid \\uXXXX escape"
  | .badEscape => "Invalid \\escape"
  | .byteOrderMark => "Unexpected UTF-8 BOM (decode using utf-8-sig)"
  | .tooManyDigits count =>
    s!"Exceeds the limit ({maxDigits} digits) for integer string conversion: value has {count}" ++
      " digits; use sys.set_int_max_str_digits() to increase the limit"
  | .tooDeepList =>
    "maximum recursion depth exceeded while decoding a JSON array from a unicode string"
  | .tooDeepObject =>
    "maximum recursion depth exceeded while decoding a JSON object from a unicode string"

/-- Whether a text goes beyond what the reader has room for. -/
def Cause.isTooDeep : Cause → Bool
  | .tooDeepList => true
  | .tooDeepObject => true
  | _ => false

/-- Whether a text breaks the rules of JSON at some place, rather than a limit of the reader. -/
def Cause.isSyntactic : Cause → Bool
  | .tooManyDigits _ => false
  | cause => !cause.isTooDeep

/-- A fault, and the number of characters from its place to the end of the text. -/
structure Fault where
  cause : Cause
  remaining : Nat
  deriving DecidableEq

/-- A fault just before `rest`. -/
def failAt {α : Type} (cause : Cause) (rest : List Char) : Except Fault α :=
  .error ⟨cause, rest.length⟩

def isSpace (c : Char) : Bool :=
  c = ' ' || c = '\t' || c = '\n' || c = '\r'

/-- What follows the blanks. -/
def skipSpace (cs : List Char) : List Char :=
  cs.dropWhile isSpace

/-! ### Strings -/

/-- The value of a digit in base sixteen. -/
def hexDigit? (c : Char) : Option Nat :=
  let n := c.toNat
  if 0x30 ≤ n ∧ n ≤ 0x39 then some (n - 0x30)
  else if 0x41 ≤ n ∧ n ≤ 0x46 then some (n - 0x37)
  else if 0x61 ≤ n ∧ n ≤ 0x66 then some (n - 0x57)
  else none

/-- The number that four digits in base sixteen write. -/
def hexUnit? (a b c d : Char) : Option Nat := do
  let a ← hexDigit? a
  let b ← hexDigit? b
  let c ← hexDigit? c
  let d ← hexDigit? d
  return ((a * 16 + b) * 16 + c) * 16 + d

/-- The character that a backslash and `c` stand for. -/
def escaped? (c : Char) : Option Char :=
  match c with
  | '"' => some '"'
  | '\\' => some '\\'
  | '/' => some '/'
  | 'b' => some '\x08'
  | 'f' => some '\x0c'
  | 'n' => some '\n'
  | 'r' => some '\r'
  | 't' => some '\t'
  | _ => none

/-- A unit that starts a pair. -/
def isHighUnit (u : Nat) : Bool :=
  0xD800 ≤ u && u ≤ 0xDBFF

/-- A unit that ends a pair. -/
def isLowUnit (u : Nat) : Bool :=
  0xDC00 ≤ u && u ≤ 0xDFFF

/-- The character of a unit that stands alone; the replacement character for half of a pair. -/
def unitChar (u : Nat) : Char :=
  if isHighUnit u || isLowUnit u then '\ufffd' else Char.ofNat u

/-- The character of a pair of units. -/
def pairChar (high low : Nat) : Char :=
  Char.ofNat (0x10000 + (high - 0xD800) * 0x400 + (low - 0xDC00))

/-- Reads what follows a backslash and `u`: four digits, and a second unit with its own backslash
if the two make a pair. The digits may not be the last characters of the text, since the string has
yet to end. The result is the character and how many characters after the `u` it took. -/
def unicodeEscape (cs : List Char) : Except Fault (Char × Nat) :=
  match cs with
  | a :: b :: c :: d :: rest@(_ :: _) =>
    match hexUnit? a b c d with
    | none => .error ⟨.badUnicodeEscape, cs.length + 1⟩
    | some unit =>
      match rest with
      | '\\' :: 'u' :: e :: f :: g :: h :: _ :: _ =>
        if isHighUnit unit then
          match hexUnit? e f g h with
          | none => .error ⟨.badUnicodeEscape, cs.length - 5⟩
          | some second =>
            if isLowUnit second then .ok (pairChar unit second, 10) else .ok (unitChar unit, 4)
        else .ok (unitChar unit, 4)
      | _ => .ok (unitChar unit, 4)
  | _ => .error ⟨.badUnicodeEscape, cs.length + 1⟩

/-- Reads a string after its opening quote, which stands `opening` characters before the end of
the text: its characters, and what follows the closing quote. -/
def string (opening : Nat) : List Char → Except Fault (List Char × List Char)
  | [] => .error ⟨.unterminatedString, opening⟩
  | '"' :: rest => .ok ([], rest)
  | '\\' :: [] => .error ⟨.unterminatedString, opening⟩
  | '\\' :: 'u' :: rest =>
    match unicodeEscape rest with
    | .error fault => .error fault
    | .ok (c, taken) =>
      match string opening (rest.drop taken) with
      | .error fault => .error fault
      | .ok (cs, after) => .ok (c :: cs, after)
  | '\\' :: e :: rest =>
    match escaped? e with
    | none => .error ⟨.badEscape, rest.length + 2⟩
    | some c =>
      match string opening rest with
      | .error fault => .error fault
      | .ok (cs, after) => .ok (c :: cs, after)
  | c :: rest =>
    if c.toNat < 0x20 then .error ⟨.controlCharacter, rest.length + 1⟩
    else
      match string opening rest with
      | .error fault => .error fault
      | .ok (cs, after) => .ok (c :: cs, after)
  termination_by cs => cs.length
  decreasing_by all_goals simp only [List.length_drop, List.length_cons]; omega

/-! ### Numbers -/

/-- The number that decimal digits write. -/
def digitsValue (ds : List Char) : Nat :=
  ds.foldl (fun n d => 10 * n + (d.toNat - 0x30)) 0

/-- The digits before the point: a zero alone, or digits of which the first is not zero. -/
def wholePart : List Char → Option (List Char × List Char)
  | [] => none
  | '0' :: rest => some (['0'], rest)
  | c :: rest =>
    if c.isDigit then some (c :: rest.takeWhile Char.isDigit, rest.dropWhile Char.isDigit)
    else none

/-- The digits after a point. A point without a digit after it is not part of the number. -/
def fraction (cs : List Char) : List Char × List Char :=
  match cs with
  | '.' :: d :: rest =>
    if d.isDigit then (d :: rest.takeWhile Char.isDigit, rest.dropWhile Char.isDigit)
    else ([], cs)
  | _ => ([], cs)

/-- The sign and digits of a power of ten. Its mark without digits is not part of the number. -/
def exponent (cs : List Char) : Option Int × List Char :=
  match cs with
  | e :: rest =>
    if e = 'e' ∨ e = 'E' then
      let (negative, unsigned) :=
        match rest with
        | '-' :: more => (true, more)
        | '+' :: more => (false, more)
        | _ => (false, rest)
      match unsigned.takeWhile Char.isDigit with
      | [] => (none, cs)
      | ds =>
        let n : Int := digitsValue ds
        (some (if negative then -n else n), unsigned.dropWhile Char.isDigit)
    else (none, cs)
  | [] => (none, cs)

/-- The value of a number: an integer if it is written as one, otherwise the nearest float. -/
def numberValue (negative : Bool) (whole fractional : List Char) (power : Option Int) :
    Except Cause Value :=
  match fractional, power with
  | [], none =>
    let n : Int := digitsValue whole
    if whole.length ≤ maxDigits then .ok (.int (if negative then -n else n))
    else .error (.tooManyDigits whole.length)
  | _, _ =>
    .ok (.float (Binary64.ofDecimal negative (digitsValue (whole ++ fractional))
      (power.getD 0 - fractional.length)))

/-- Reads a number. -/
def number (cs : List Char) : Except Fault (Value × List Char) :=
  let (negative, unsigned) :=
    match cs with
    | '-' :: rest => (true, rest)
    | _ => (false, cs)
  match wholePart unsigned with
  | none => failAt .expectedValue cs
  | some (whole, rest) =>
    let (fractional, rest) := fraction rest
    let (power, rest) := exponent rest
    match numberValue negative whole fractional power with
    | .ok v => .ok (v, rest)
    | .error cause => failAt cause cs

/-! ### Values -/

/-- What follows `word`, if the text starts with it. -/
def afterWord? : List Char → List Char → Option (List Char)
  | [], cs => some cs
  | _ :: _, [] => none
  | w :: word, c :: cs => if w = c then afterWord? word cs else none

/-- Reads one of the values that a word stands for. -/
def word? (cs : List Char) : Option (Value × List Char) :=
  let read? (word : String) (v : Value) := (afterWord? word.toList cs).map fun rest => (v, rest)
  read? "null" .null <|> read? "true" (.bool true) <|> read? "false" (.bool false) <|>
    read? "NaN" (.float .nan) <|> read? "Infinity" (.float (.infinite false)) <|>
    read? "-Infinity" (.float (.infinite true))

/-- Reads a value that holds no others and is no string. -/
def atom (cs : List Char) : Except Fault (Value × List Char) :=
  match word? cs with
  | some result => .ok result
  | none => number cs

/-- Reads the name of a field and the colon after it. -/
def fieldName (cs : List Char) : Except Fault (String × List Char) :=
  match cs with
  | '"' :: rest =>
    match string (rest.length + 1) rest with
    | .error fault => .error fault
    | .ok (name, after) =>
      match skipSpace after with
      | ':' :: after => .ok (String.ofList name, skipSpace after)
      | other => failAt .expectedColon other
  | _ => failAt .expectedName cs

/-- The room inside a list or an object, if there is room for it. Without a number there always
is. -/
def inside? : Option Nat → Option (Option Nat)
  | none => some none
  | some 0 => none
  | some (room + 1) => some (some room)

mutual

/-- Reads a value, nested at most as deep as there is room. The fuel is for the recursion only. -/
def value : Nat → Option Nat → List Char → Except Fault (Value × List Char)
  | 0, _, cs => failAt .expectedValue cs
  | fuel + 1, room, cs =>
    match cs with
    | '"' :: rest =>
      match string (rest.length + 1) rest with
      | .error fault => .error fault
      | .ok (s, after) => .ok (.text (String.ofList s), after)
    | '[' :: rest =>
      match inside? room with
      | none => failAt .tooDeepList cs
      | some room =>
        match skipSpace rest with
        | ']' :: after => .ok (.list [], after)
        | other =>
          match items fuel room other with
          | .error fault => .error fault
          | .ok (xs, after) => .ok (.list xs, after)
    | '\x7b' :: rest =>
      match inside? room with
      | none => failAt .tooDeepObject cs
      | some room =>
        match skipSpace rest with
        | '\x7d' :: after => .ok (.record [], after)
        | other =>
          match members fuel room other with
          | .error fault => .error fault
          | .ok (fs, after) => .ok (.record (Fields.ofList fs), after)
    | _ => atom cs

/-- Reads the values of a list from the first one up to the closing bracket. -/
def items : Nat → Option Nat → List Char → Except Fault (List Value × List Char)
  | 0, _, cs => failAt .expectedValue cs
  | fuel + 1, room, cs =>
    match value fuel room cs with
    | .error fault => .error fault
    | .ok (x, after) =>
      match skipSpace after with
      | ']' :: after => .ok ([x], after)
      | ',' :: after =>
        match items fuel room (skipSpace after) with
        | .error fault => .error fault
        | .ok (xs, after) => .ok (x :: xs, after)
      | other => failAt .expectedComma other

/-- Reads the fields of an object from the first one up to the closing brace. -/
def members : Nat → Option Nat → List Char → Except Fault (List (Key × Value) × List Char)
  | 0, _, cs => failAt .expectedValue cs
  | fuel + 1, room, cs =>
    match fieldName cs with
    | .error fault => .error fault
    | .ok (name, after) =>
      match value fuel room after with
      | .error fault => .error fault
      | .ok (x, after) =>
        match skipSpace after with
        | '\x7d' :: after => .ok ([(.text name, x)], after)
        | ',' :: after =>
          match members fuel room (skipSpace after) with
          | .error fault => .error fault
          | .ok (fs, after) => .ok ((.text name, x) :: fs, after)
        | other => failAt .expectedComma other

end

/-- Reads a whole text. Every level of nesting and every item costs at least one character, so
twice the length of the text is fuel enough. -/
def readChars (room : Option Nat) (cs : List Char) : Except Fault Value :=
  match cs with
  | '\ufeff' :: _ => failAt .byteOrderMark cs
  | _ =>
    match value (2 * cs.length + 2) room (skipSpace cs) with
    | .error fault => .error fault
    | .ok (v, after) =>
      match skipSpace after with
      | [] => .ok v
      | other => failAt .extraData other

/-- The value that a JSON text writes, with lists and objects nested no more than `depth` deep. -/
def readWithin (depth : Nat) (text : String) : Except Fault Value :=
  readChars (some depth) text.toList

/-- The value that a JSON text writes. -/
def read (text : String) : Except Fault Value :=
  readChars none text.toList

/-- The place of a fault in `text` by line, column and character. -/
def Fault.place (text : String) (fault : Fault) : String :=
  let cs := text.toList
  let index := cs.length - fault.remaining
  let before := cs.take index
  let line := before.count '\n' + 1
  let column := (before.reverse.takeWhile (· ≠ '\n')).length + 1
  s!"line {line} column {column} (char {index})"

/-- The wording of a fault in `text`: its cause, and its place if the text breaks the rules
there. -/
def Fault.message (text : String) (fault : Fault) : String :=
  if fault.cause.isSyntactic then s!"{fault.cause.message}: {fault.place text}"
  else fault.cause.message

end TagOutline.Json
