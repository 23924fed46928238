import TagOutline.Entity.Basic

/-!
# Entities as records

An entity is stored as a record of its name, its attributes and, for a container, its children.
Reading is lenient: unknown fields are passed over, and attributes or children that are missing,
null or empty count as none. Attributes may also be given as a list of pairs. The children of a
container get the class that its own class has for them.
-/

namespace TagOutline

/-- Why a value cannot be read as an entity. -/
inductive RecordError where
  /-- A value that has no fields was found where a record was wanted. -/
  | notARecord (found : Value)
  | missingName
  /-- Attributes or children are given by a value that has no elements. -/
  | noElements (found : Value)
  /-- An element of a list of attributes has another number of parts than two. -/
  | pairLength (index parts : Nat)
  /-- An element of a list of attributes has no parts. -/
  | notAPair (index : Nat)
  /-- A list or a record was used as the key of an attribute. -/
  | badKey (found : Value)

def RecordError.message : RecordError → String
  | .notARecord (.text _) => "string indices must be integers, not 'str'"
  | .notARecord (.list _) => "list indices must be integers or slices, not str"
  | .notARecord found => s!"'{found.typeName}' object is not subscriptable"
  | .missingName => "'name'"
  | .noElements found => s!"'{found.typeName}' object is not iterable"
  | .pairLength index parts =>
    s!"dictionary update sequence element #{index} has length {parts}; 2 is required"
  | .notAPair index => s!"cannot convert dictionary update sequence element #{index} to a sequence"
  | .badKey found => s!"unhashable type: '{found.typeName}'"

namespace Value

/-- The values that a value consists of: the items of a list, the characters of a text, the keys of
a record. -/
def elements? : Value → Option (List Value)
  | .list items => some items
  | .text s => some (s.toList.map fun c => .text (String.singleton c))
  | .record fields => some (fields.map fun f => ofKey f.1)
  | _ => none

/-- The value under a name in fields, unless it counts as absent. -/
def present? (name : String) (fields : Fields Value) : Option Value :=
  (Fields.named? name fields).filter fun v => !v.isAbsent

end Value

namespace Entity

/-- The attribute that the element at `index` of a list of attributes gives. -/
def attributeOf (index : Nat) (element : Value) : Except RecordError (Key × Value) :=
  match element.elements? with
  | none => .error (.notAPair index)
  | some [k, v] =>
    match k.toKey? with
    | some key => .ok (key, v)
    | none => .error (.badKey k)
  | some parts => .error (.pairLength index parts.length)

/-- Writes the attributes that the elements of a list give, the first of them at `index`. -/
def writePairs (fields : Fields Value) (index : Nat) : List Value → Except RecordError (Fields Value)
  | [] => .ok fields
  | e :: es =>
    match attributeOf index e with
    | .error error => .error error
    | .ok (k, v) => writePairs (fields.put k v) (index + 1) es

/-- The attributes that a record gives. -/
def readAttributes (fields : Fields Value) : Except RecordError (Fields Value) :=
  match Value.present? "attributes" fields with
  | none => .ok []
  | some (.record attributes) => .ok attributes
  | some v =>
    match v.elements? with
    | none => .error (.noElements v)
    | some elements => writePairs [] 0 elements

/-- The name and the attributes that a value gives. -/
def readBody : Value → Except RecordError (Value × Fields Value × Fields Value)
  | .record fields =>
    match Fields.named? "name" fields with
    | none => .error .missingName
    | some name =>
      match readAttributes fields with
      | .error error => .error error
      | .ok attributes => .ok (name, attributes, fields)
  | v => .error (.notARecord v)

/-- Reads an entity of a class that takes no children. -/
def readChild (cls : EntityClass) (v : Value) : Except RecordError Entity :=
  match readBody v with
  | .error error => .error error
  | .ok (name, attributes, _) => .ok ⟨cls, name, attributes, []⟩

/-- The elements of the children that a record gives. -/
def childElements (fields : Fields Value) : Except RecordError (List Value) :=
  match Value.present? "children" fields with
  | none => .ok []
  | some v =>
    match v.elements? with
    | none => .error (.noElements v)
    | some elements => .ok elements

/-- Reads an entity of a class that takes children. -/
def readContainer (cls : EntityClass) (v : Value) : Except RecordError Entity :=
  match readBody v with
  | .error error => .error error
  | .ok (name, attributes, fields) =>
    match childElements fields with
    | .error error => .error error
    | .ok elements =>
      match elements.mapM (readChild cls.childClass) with
      | .error error => .error error
      | .ok children => .ok ⟨cls, name, attributes, children⟩

/-- Reads an entity of any class. -/
def ofValue (cls : EntityClass) (v : Value) : Except RecordError Entity :=
  if cls.isContainer then readContainer cls v else readChild cls v

mutual

/-- The record that an entity is stored as. -/
def toValue : Entity → Value
  | ⟨cls, name, attributes, children⟩ =>
    .record ([(.text "name", name), (.text "attributes", .record attributes)] ++
      if cls.isContainer then [(.text "children", .list (toValues children))] else [])

def toValues : List Entity → List Value
  | [] => []
  | e :: es => toValue e :: toValues es

end

end Entity

end TagOutline
