import TagOutline.Data.Display

/-!
# Entities

What an outline is made of: containers, such as forms and nodes, and their children, such as inputs
and properties. An entity has a name and attributes; a container also has children, in order.
-/

namespace TagOutline

/-- The classes of entities. -/
inductive EntityClass where
  | base
  | child
  | input
  | property
  | container
  | form
  | node
  deriving DecidableEq, Repr, Inhabited

namespace EntityClass

def all : List EntityClass :=
  [.base, .child, .input, .property, .container, .form, .node]

def label : EntityClass → String
  | .base => "BaseTagEntity"
  | .child => "ChildEntity"
  | .input => "Input"
  | .property => "Property"
  | .container => "ContainerEntity"
  | .form => "Form"
  | .node => "Node"

def ofLabel? (label : String) : Option EntityClass :=
  all.find? fun c => c.label == label

def isContainer : EntityClass → Bool
  | .container => true
  | .form => true
  | .node => true
  | _ => false

/-- The class of the children that a container is rebuilt with. -/
def childClass : EntityClass → EntityClass
  | .form => .input
  | .node => .property
  | _ => .child

end EntityClass

/-- An entity. The children are in use for containers only. -/
structure Entity where
  cls : EntityClass
  name : Value
  attributes : Fields Value
  children : List Entity
  deriving Inhabited

/-- Something was asked of a class whose entities do not have it. -/
structure MissingMember where
  cls : EntityClass
  member : String
  deriving DecidableEq

def MissingMember.message (m : MissingMember) : String :=
  s!"'{m.cls.label}' object has no attribute '{m.member}'"

namespace Entity

/-- A new entity. -/
def new (cls : EntityClass) (name : Value) : Entity :=
  ⟨cls, name, [], []⟩

/-- Writes an attribute. The last value written under a key counts. -/
def addAttribute (e : Entity) (key : Key) (value : Value) : Entity :=
  { e with attributes := e.attributes.put key value }

/-- Adds a child behind the others. Only containers take children. -/
def addChild (e child : Entity) : Except MissingMember Entity :=
  if e.cls.isContainer then .ok { e with children := e.children ++ [child] }
  else .error ⟨e.cls, "add_child"⟩

mutual

/-- Whether two entities are equal: of one class and with the same names, attributes and children.
-/
def same (a b : Entity) : Bool :=
  match a with
  | ⟨cls, name, attributes, children⟩ =>
    cls == b.cls && name.same b.name && Value.sameMaps attributes b.attributes &&
      sameChildren children b.children

/-- Whether two lists have equal entities in the same order. -/
def sameChildren : List Entity → List Entity → Bool
  | [], bs => bs.isEmpty
  | a :: as, bs =>
    match bs with
    | [] => false
    | b :: bs => same a b && sameChildren as bs

end

/-- The short form of an entity: its class and name, and how many children or attributes it has. An
entity of the base class lists its attributes. -/
def describe (e : Entity) : String :=
  let name := e.name.literal
  if e.cls.isContainer then s!"{e.cls.label}(name={name}, children={e.children.length})"
  else if e.cls = .base then
    s!"{e.cls.label}(name={name}, attributes={Value.literal (.record e.attributes)})"
  else s!"{e.cls.label}(name={name}, attributes={e.attributes.length})"

end Entity

end TagOutline
