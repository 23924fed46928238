import TagOutline.Config.Loader

/-!
# A validator of configurations

A configuration read from a record. Fields that are missing have their standard values, and unknown
fields are passed over. Each field with a value of the wrong kind is an issue, and all issues are
reported in the order of the fields. An integer may also be given as a truth value, as a float
without a fraction, or as a decimal text.
-/

namespace TagOutline

/-- What is wrong with a value. -/
inductive IssueKind where
  | notARecord
  | notADialect
  | notAList
  | notAText
  | notAnInteger
  | unreadableInteger
  | fractional
  | notFinite
  | tooLarge
  deriving DecidableEq, Repr

def IssueKind.code : IssueKind → String
  | .notARecord => "model_type"
  | .notADialect => "literal_error"
  | .notAList => "list_type"
  | .notAText => "string_type"
  | .notAnInteger => "int_type"
  | .unreadableInteger => "int_parsing"
  | .fractional => "int_from_float"
  | .notFinite => "finite_number"
  | .tooLarge => "int_parsing_size"

def IssueKind.message : IssueKind → String
  | .notARecord => "Input should be a valid dictionary or instance of NodeParserConfig"
  | .notADialect => "Input should be 'form' or 'node'"
  | .notAList => "Input should be a valid list"
  | .notAText => "Input should be a valid string"
  | .notAnInteger => "Input should be a valid integer"
  | .unreadableInteger => "Input should be a valid integer, unable to parse string as an integer"
  | .fractional => "Input should be a valid integer, got a number with a fractional part"
  | .notFinite => "Input should be a finite number"
  | .tooLarge => "Unable to parse input string as an integer, exceeded maximum size"

/-- An issue of a kind with the value that was found at a place. -/
def IssueKind.issue (kind : IssueKind) (place : List String) (found : Value) : Issue :=
  ⟨kind.code, kind.message, place, found⟩

namespace Config

/-! ### Integers -/

/-- A blank around an integer. -/
def isPadding (c : Char) : Bool :=
  Text.isBlank c && !(0x1C ≤ c.toNat && c.toNat ≤ 0x1F)

/-- Without the blanks around it. -/
def unpadded (cs : List Char) : List Char :=
  ((cs.dropWhile isPadding).reverse.dropWhile isPadding).reverse

/-- Without the plus sign at the start; another sign may not follow it. -/
def withoutPlus? : List Char → Option (List Char)
  | '+' :: '-' :: _ => none
  | '+' :: cs => some cs
  | cs => some cs

/-- Without the zeros at the start and the underscores among them, `last` being the last character
that was passed over. It stays if a point follows or nothing. -/
def withoutMoreZeros? (last : Char) : List Char → Option (List Char)
  | [] => some [last]
  | c :: cs =>
    if c = '0' ∨ c = '_' then withoutMoreZeros? c cs
    else if c = '.' then some (last :: c :: cs)
    else if c.isDigit then some (c :: cs)
    else none

/-- Without the zeros at the start of a number that has no sign. -/
def withoutZeros? : List Char → Option (List Char)
  | [] => none
  | c :: cs =>
    if c = '0' then withoutMoreZeros? c cs
    else if c = '-' ∨ c.isDigit then some (c :: cs)
    else none

/-- Without a point that only zeros follow, and without these. -/
def withoutFraction (cs : List Char) : List Char :=
  if ((cs.dropWhile (· ≠ '.')).drop 1).all (· = '0') then cs.takeWhile (· ≠ '.') else cs

/-- Without the underscores, each of which has to stand alone between two characters. -/
def withoutUnderscores? (cs : List Char) : Option (List Char) :=
  let doubled := (cs.zip (cs.drop 1)).contains ('_', '_')
  if cs.head? = some '_' ∨ cs.getLast? = some '_' ∨ doubled then none
  else some (cs.filter (· ≠ '_'))

/-- The number that digits write: a zero alone, or digits of which the first is not zero. -/
def natural? (cs : List Char) : Option Nat :=
  if cs.isEmpty || !cs.all Char.isDigit || (cs.head? = some '0' && cs.length ≠ 1) then none
  else some (cs.foldl (fun n c => 10 * n + (c.toNat - 0x30)) 0)

/-- The integer that a text writes. -/
def integer? (s : String) : Option Int := do
  let unsigned ← withoutPlus? (unpadded s.toList)
  let cs ← withoutUnderscores? (withoutFraction (← withoutZeros? unsigned))
  match cs with
  | '-' :: ds => (natural? ds).map fun n => -(n : Int)
  | ds => (natural? ds).map Int.ofNat

/-- The integers that a float may stand for: those below `2 ^ 63` in magnitude. -/
def isWithinWord (n : Int) : Bool :=
  n.natAbs < 0x8000000000000000

/-! ### Fields -/

/-- Reads the value of a field. -/
def readInteger : Value → Except IssueKind Int
  | .int n => .ok n
  | .bool b => .ok (if b then 1 else 0)
  | .text s =>
    match integer? s with
    | some n =>
      if (Nat.toDigits 10 n.natAbs).length ≤ maxDigits then .ok n else .error .tooLarge
    | none => .error .unreadableInteger
  | .float .nan => .error .notFinite
  | .float (.infinite _) => .error .notFinite
  | .float x =>
    match x.toInt? with
    | none => .error .fractional
    | some n => if isWithinWord n then .ok n else .error .tooLarge
  | _ => .error .notAnInteger

/-- Reads the value of a field that names a dialect. -/
def readDialect (v : Value) : Except IssueKind Dialect :=
  match Dialect.ofValue v with
  | .ok d => .ok d
  | .error _ => .error .notADialect

/-- Reads the value of a field that holds a text. -/
def readText : Value → Except IssueKind String
  | .text s => .ok s
  | _ => .error .notAText

/-- The value that a field has in a record, or its standard value; and its issue. -/
def readField {α : Type} (fields : Fields Value) (name : String) (standard : α)
    (read : Value → Except IssueKind α) : α × List Issue :=
  match Fields.named? name fields with
  | none => (standard, [])
  | some v =>
    match read v with
    | .ok a => (a, [])
    | .error kind => (standard, [kind.issue [name] v])

/-- Reads the items of a list of texts, the first of them at `index`. -/
def readTexts (name : String) (index : Nat) : List Value → List String × List Issue
  | [] => ([], [])
  | v :: vs =>
    let (texts, issues) := readTexts name (index + 1) vs
    match readText v with
    | .ok s => (s :: texts, issues)
    | .error kind => (texts, kind.issue [name, decimal index] v :: issues)

/-- The texts that a field has in a record, or its standard value; and its issues. -/
def readListField (fields : Fields Value) (name : String) (standard : List String) :
    List String × List Issue :=
  match Fields.named? name fields with
  | none => (standard, [])
  | some (.list vs) => readTexts name 0 vs
  | some v => (standard, [IssueKind.notAList.issue [name] v])

/-- The configuration that a value gives, or all that is wrong with it. -/
def ofValue (v : Value) : Except (List Issue) Config :=
  match v with
  | .record fields =>
    let dialect := readField fields "dialect" standard.dialect readDialect
    let ignored := readListField fields "ignored_attributes" standard.ignored
    let indent := readField fields "indent" standard.indent readText
    let printLevel := readField fields "print_level" standard.printLevel readInteger
    match dialect.2 ++ ignored.2 ++ indent.2 ++ printLevel.2 with
    | [] => .ok ⟨dialect.1, ignored.1, indent.1, printLevel.1⟩
    | issues => .error issues
  | v => .error [IssueKind.notARecord.issue [] v]

end Config

/-! ### The report -/

namespace Issue

/-- The longest prefix that takes at most `size` bytes. -/
def prefixWithin (size : Nat) : List Char → List Char
  | [] => []
  | c :: cs => if c.utf8Size ≤ size then c :: prefixWithin (size - c.utf8Size) cs else []

/-- A text of more than fifty bytes with its middle left out. -/
def abridged (s : String) : String :=
  if s.utf8ByteSize ≤ 50 then s
  else
    let cs := s.toList
    String.ofList (prefixWithin 25 cs ++ ['.', '.', '.'] ++ (prefixWithin 24 cs.reverse).reverse)

/-- The address of the page on a code. -/
def address (code : String) : String :=
  "/".intercalate ["https:", "", "errors.pydantic.dev", "2.14", "v", code]

/-- The lines that report an issue. -/
def lines (i : Issue) : List String :=
  let shown := abridged i.found.literal
  (if i.place.isEmpty then [] else [".".intercalate i.place]) ++
    [s!"  {i.message} [type={i.code}, input_value={shown}, input_type={i.found.typeName}]",
      s!"    For further information visit {address i.code}"]

/-- The report on all issues of a configuration. -/
def report (issues : List Issue) : String :=
  let count := issues.length
  let noun := if count = 1 then "error" else "errors"
  "\n".intercalate (s!"{count} validation {noun} for NodeParserConfig" :: issues.flatMap lines)

end Issue

/-- Validates a configuration, with a report on all that is wrong. -/
def Config.validate (v : Value) : Except Rejection Config :=
  (ofValue v).mapError fun issues => ⟨issues, Issue.report issues⟩

end TagOutline
