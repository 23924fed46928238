import TagOutline.Data.Fields

/-!
# Values

The data that JSON texts and entities hold: null, truth values, numbers, texts, lists and records.
`Value.same` is the equality that counts for entities. It does not ask how a number is written nor
in which order a record was filled, and a value is always the same as itself.
-/

namespace TagOutline

/-- The number of digits that the text of an integer may have where integers are read from texts. -/
def maxDigits : Nat :=
  4300

inductive Value where
  | null
  | bool (b : Bool)
  | int (n : Int)
  | float (x : Binary64)
  | text (s : String)
  | list (items : List Value)
  | record (fields : List (Key × Value))
  deriving Inhabited

namespace Value

/-- The key that a value can serve as. Lists and records serve as none. -/
def toKey? : Value → Option Key
  | .null => some .null
  | .bool b => some (.bool b)
  | .int n => some (.int n)
  | .float x => some (.float x)
  | .text s => some (.text s)
  | .list _ => none
  | .record _ => none

def ofKey : Key → Value
  | .null => .null
  | .bool b => .bool b
  | .int n => .int n
  | .float x => .float x
  | .text s => .text s

@[simp] theorem toKey?_ofKey (k : Key) : (ofKey k).toKey? = some k := by
  cases k <;> rfl

/-- Whether the value counts as absent where an optional part is read: null, false, zero, and all
that is empty. -/
def isAbsent : Value → Bool
  | .null => true
  | .bool b => !b
  | .int n => n == 0
  | .float x => x.isZero
  | .text s => s.isEmpty
  | .list items => items.isEmpty
  | .record fields => fields.isEmpty

/-- The word for a value's type in messages. -/
def typeName : Value → String
  | .null => "NoneType"
  | .bool _ => "bool"
  | .int _ => "int"
  | .float _ => "float"
  | .text _ => "str"
  | .list _ => "list"
  | .record _ => "dict"

mutual

/-- Whether two values are the same: atoms as keys are, lists item by item, records field by field
in any order. -/
def same : Value → Value → Bool
  | .list xs, v =>
    match v with
    | .list ys => sameItems xs ys
    | _ => false
  | .record fs, v =>
    match v with
    | .record gs => fs.length == gs.length && sameFields fs gs
    | _ => false
  | .null, v => v.toKey? == some .null
  | .bool b, v => (v.toKey?.map (Key.same (.bool b))).getD false
  | .int n, v => (v.toKey?.map (Key.same (.int n))).getD false
  | .float x, v => (v.toKey?.map (Key.same (.float x))).getD false
  | .text s, v => (v.toKey?.map (Key.same (.text s))).getD false

/-- Whether two lists have the same values in the same order. -/
def sameItems : List Value → List Value → Bool
  | [], ys => ys.isEmpty
  | x :: xs, ys =>
    match ys with
    | [] => false
    | y :: ys => x.same y && sameItems xs ys

/-- Whether each field has the same value in `gs`. -/
def sameFields : List (Key × Value) → Fields Value → Bool
  | [], _ => true
  | (k, x) :: fs, gs =>
    (match gs.get? k with
     | some y => x.same y
     | none => false) && sameFields fs gs

end

/-- Equality of values that stand by themselves. It differs from `same` only for the number that
is not a number, which equals nothing when it is compared directly. -/
def equal (a b : Value) : Bool :=
  match a with
  | .float .nan => false
  | _ => a.same b

/-- Whether two attribute maps have the same values under the same keys. -/
def sameMaps (fs gs : Fields Value) : Bool :=
  fs.length == gs.length && sameFields fs gs

end Value

end TagOutline
