import TagOutline.Entity.Session

/-!
# Sessions with attribute maps of their own

In a session an object holds its attributes itself. Here it refers to a map, and all that refer to
one map see what is written to it. A new entity gets a new map. The record of an entity refers to
copies of the maps of the entity and of its children, and an entity that is made out of a record
gets copies again. The maps of a record can be changed at will. The lists of children are not shared
in either way of taking records, so they stay with their objects.
-/

namespace TagOutline

/-- An entity in the store, with references to its attributes and its children. -/
structure HeapObject where
  cls : EntityClass
  name : Value
  attributes : Ref
  children : List Ref
  deriving Inhabited

/-- Maps, objects that refer to them, and what identifiers name. -/
structure Heap where
  maps : List (Fields Value)
  objects : List HeapObject
  names : List (String × Ref)

/-- The record of an entity, with references to the attributes. -/
inductive HeapRecord where
  | leaf (name : Value) (attributes : Ref)
  | container (name : Value) (attributes : Ref) (children : List HeapRecord)

namespace HeapRecord

def name : HeapRecord → Value
  | leaf name _ => name
  | container name _ _ => name

def attributes : HeapRecord → Ref
  | leaf _ attributes => attributes
  | container _ attributes _ => attributes

def children : HeapRecord → List HeapRecord
  | leaf _ _ => []
  | container _ _ children => children

mutual

/-- All maps that a record refers to. -/
def maps : HeapRecord → List Ref
  | leaf _ attributes => [attributes]
  | container _ attributes children => attributes :: mapsOf children

def mapsOf : List HeapRecord → List Ref
  | [] => []
  | d :: ds => maps d ++ mapsOf ds

end

mutual

/-- The fields of a record, its attributes being looked up. -/
def fields (look : Ref → Fields Value) : HeapRecord → Fields Value
  | leaf name attributes =>
    [(.text "name", name), (.text "attributes", .record (look attributes))]
  | container name attributes children =>
    [(.text "name", name), (.text "attributes", .record (look attributes)),
      (.text "children", .list (values look children))]

def values (look : Ref → Fields Value) : List HeapRecord → List Value
  | [] => []
  | d :: ds => .record (fields look d) :: values look ds

end

end HeapRecord

namespace Heap

/-- A heap in which nothing has been made. -/
def empty : Heap :=
  ⟨[], [], []⟩

def ref? (h : Heap) (id : String) : Option Ref :=
  h.names.lookup id

def mapAt (h : Heap) (a : Ref) : Fields Value :=
  h.maps.getD a []

def objectAt (h : Heap) (r : Ref) : HeapObject :=
  h.objects.getD r default

def bindName (h : Heap) (id : String) (r : Ref) : Heap :=
  { h with names := (id, r) :: h.names }

/-- A new map, filled with some fields. -/
def newMap (h : Heap) (fields : Fields Value) : Heap × Ref :=
  ({ h with maps := h.maps ++ [fields] }, h.maps.length)

/-- A new object with a new map. -/
def newEntity (h : Heap) (cls : EntityClass) (name : Value) (fields : Fields Value)
    (children : List Ref) : Heap × Ref :=
  let (h, a) := h.newMap fields
  ({ h with objects := h.objects ++ [⟨cls, name, a, children⟩] }, h.objects.length)

def writeMap (h : Heap) (f : Fields Value → Fields Value) (a : Ref) : Heap :=
  { h with maps := h.maps.modify a f }

def addChild (h : Heap) (r c : Ref) : Heap :=
  { h with objects := h.objects.modify r fun o => { o with children := o.children ++ [c] } }

/-- What is made of each item in turn. -/
def inTurn {α β : Type} (make : Heap → α → Heap × β) (h : Heap) : List α → Heap × List β
  | [] => (h, [])
  | x :: xs =>
    let (h, y) := make h x
    let (h, ys) := inTurn make h xs
    (h, y :: ys)

/-- The record of the entity at a place, down to `depth` levels of children. All maps are copied. -/
def takeRecord : Nat → Heap → Ref → Heap × HeapRecord
  | 0, h, r =>
    let o := h.objectAt r
    let (h, a) := h.newMap (h.mapAt o.attributes)
    (h, if o.cls.isContainer then .container o.name a [] else .leaf o.name a)
  | depth + 1, h, r =>
    let o := h.objectAt r
    let (h, a) := h.newMap (h.mapAt o.attributes)
    if o.cls.isContainer then
      let (h, ds) := inTurn (takeRecord depth) h o.children
      (h, .container o.name a ds)
    else (h, .leaf o.name a)

/-- Makes an entity without children out of a record. The attributes are copied. -/
def makeChild (cls : EntityClass) (h : Heap) (d : HeapRecord) : Heap × Ref :=
  h.newEntity cls d.name (h.mapAt d.attributes) []

/-- Makes an entity out of a record. -/
def makeEntity (cls : EntityClass) (h : Heap) (d : HeapRecord) : Heap × Ref :=
  if cls.isContainer then
    let (h, cs) := inTurn (makeChild cls.childClass) h d.children
    h.newEntity cls d.name (h.mapAt d.attributes) cs
  else h.makeChild cls d

mutual

/-- Adds an entity to the heap: its children first, then the entity itself. -/
def insertEntity (h : Heap) : Entity → Heap × Ref
  | ⟨cls, name, attributes, children⟩ =>
    let (h, refs) := insertAll h children
    h.newEntity cls name attributes refs

def insertAll (h : Heap) : List Entity → Heap × List Ref
  | [] => (h, [])
  | e :: es =>
    let (h, r) := insertEntity h e
    let (h, rs) := insertAll h es
    (h, r :: rs)

end

/-- Stores a new entity under an identifier. -/
def store (h : Heap) (id : String) (e : Entity) : Heap :=
  let (h, r) := h.insertEntity e
  h.bindName id r

/-- The record of the entity at a place. -/
def recordOf (h : Heap) (r : Ref) : Heap × HeapRecord :=
  h.takeRecord h.objects.length r

/-- Changes all maps that a record refers to. -/
def alter (edit : Fields Value → Fields Value) (h : Heap) (d : HeapRecord) : Heap :=
  d.maps.foldl (fun h a => h.writeMap edit a) h

/-- Takes a step. The maps of a record that is changed are changed by `edit`. A step that fails
changes nothing. -/
def step (edit : Fields Value → Fields Value) (h : Heap) : SessionStep → Heap
  | .create id cls name => h.store id (.new cls name)
  | .attribute id key value =>
    match h.ref? id, key.toKey? with
    | some r, some k => h.writeMap (·.put k value) (h.objectAt r).attributes
    | _, _ => h
  | .adopt id child =>
    match h.ref? id, h.ref? child with
    | some r, some c => if (h.objectAt r).cls.isContainer then h.addChild r c else h
    | _, _ => h
  | .convert id source cls =>
    match h.ref? source with
    | some r =>
      if cls = .base then h
      else
        let (h, d) := h.recordOf r
        let (h, r') := h.makeEntity cls d
        h.bindName id r'
    | none => h
  | .read id cls text =>
    match Entity.ofJson cls text with
    | .ok e => h.store id e
    | .error _ => h
  | .alterRecord id =>
    match h.ref? id with
    | some r =>
      let (h, d) := h.recordOf r
      h.alter edit d
    | none => h
  | .toJson id _ =>
    match h.ref? id with
    | some r => (h.recordOf r).1
    | none => h
  | _ => h

/-- The heap after some steps. -/
def after (edit : Fields Value → Fields Value) (h : Heap) (steps : List SessionStep) : Heap :=
  steps.foldl (step edit) h

end Heap

end TagOutline
