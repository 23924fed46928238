import TagOutline.Number.Binary64

/-!
# Fields

Maps that keep their keys in the order of first writing. A key written again keeps its place and
its first spelling and takes the new entry. Numbers are one key when they are equal, whatever they
are written as: `1`, `1.0` and `true` name the same field.
-/

namespace TagOutline

inductive Key where
  | null
  | bool (b : Bool)
  | int (n : Int)
  | float (x : Binary64)
  | text (s : String)
  deriving DecidableEq, Inhabited

namespace Key

/-- What two keys have in common exactly when they are the same key. -/
inductive Identity where
  | null
  | integer (n : Int)
  | float (x : Binary64)
  | text (s : String)
  deriving DecidableEq

/-- The class of a key. A float that is an integer is that integer, and so are the truth values:
`true` is one and `false` is zero. -/
def identity : Key → Identity
  | .null => .null
  | .bool b => .integer (if b then 1 else 0)
  | .int n => .integer n
  | .float x => (x.toInt?.map Identity.integer).getD (.float x)
  | .text s => .text s

/-- Whether two keys name the same field. -/
def same (a b : Key) : Bool :=
  a.identity = b.identity

@[simp] theorem same_iff {a b : Key} : a.same b = true ↔ a.identity = b.identity := by
  simp [same]

@[simp] theorem same_refl (a : Key) : a.same a = true := by
  simp

theorem same_comm (a b : Key) : a.same b = b.same a := by
  simp [same, eq_comm]

/-- Two texts are the same key only if they are equal. -/
@[simp] theorem same_text (s t : String) : (text s).same (text t) = decide (s = t) := by
  simp [same, identity]

end Key

/-- Entries under keys, in the order in which the keys were first written. -/
abbrev Fields (α : Type) :=
  List (Key × α)

namespace Fields

variable {α : Type}

def get? (k : Key) : Fields α → Option α
  | [] => none
  | (k', a) :: rest => if k'.same k then some a else get? k rest

/-- Writes an entry: in place if the key is there, else at the end. -/
def put (k : Key) (a : α) : Fields α → Fields α
  | [] => [(k, a)]
  | (k', a') :: rest => if k'.same k then (k', a) :: rest else (k', a') :: put k a rest

/-- Writes entries one after another. -/
def putAll (fields : Fields α) (entries : List (Key × α)) : Fields α :=
  entries.foldl (fun m e => m.put e.1 e.2) fields

/-- The fields that writing entries one after another leads to. -/
def ofList (entries : List (Key × α)) : Fields α :=
  putAll [] entries

def named? (name : String) (fields : Fields α) : Option α :=
  fields.get? (.text name)

@[simp] theorem get?_put_self (k : Key) (a : α) (m : Fields α) : (m.put k a).get? k = some a := by
  induction m with
  | nil => simp [put, get?]
  | cons e m ih =>
    by_cases h : e.1.same k <;> simp [put, get?, h, ih]

/-- Writing under one key leaves the entries under others as they are. -/
theorem get?_put_of_not_same {k j : Key} (a : α) (m : Fields α) (h : k.same j = false) :
    (m.put k a).get? j = m.get? j := by
  induction m with
  | nil => simp [put, get?, h]
  | cons e m ih =>
    by_cases hk : e.1.same k
    · have : e.1.same j = false := by
        have hk' : e.1.identity = k.identity := by simpa using hk
        simpa [Key.same, hk'] using h
      simp [put, get?, hk, this]
    · simp [put, get?, hk, ih]

end Fields

end TagOutline
