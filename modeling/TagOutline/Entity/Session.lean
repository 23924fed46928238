import TagOutline.Entity.Html
import TagOutline.Entity.Text

/-!
# Entity sessions

Entities that are made and changed step by step. They live in a store of objects, and a container
holds references to its children, so a child that was added to several containers is one child of
all of them. Identifiers name objects. An identifier that was never given names nothing.

A step that fails changes nothing. The steps that build an entity from another one, or from a text,
make new objects for it and for its children.
-/

namespace TagOutline

/-- The place of an object in the store. -/
abbrev Ref :=
  Nat

/-- An entity in the store, with references to its children. -/
structure StoredEntity where
  cls : EntityClass
  name : Value
  attributes : Fields Value
  children : List Ref
  deriving Inhabited

/-- A new object. -/
def StoredEntity.new (cls : EntityClass) (name : String) : StoredEntity :=
  ⟨cls, .text name, [], []⟩

/-- The objects, in the order in which they were made, and what identifiers name. -/
structure Session where
  objects : List StoredEntity
  names : List (String × Ref)

/-- What a session can be asked to do. -/
inductive SessionStep where
  | create (id : String) (cls : EntityClass) (name : Value)
  | attribute (id : String) (key value : Value)
  /-- Adds one entity to the children of another. -/
  | adopt (id child : String)
  /-- Makes an entity of a class out of the record of another entity. -/
  | convert (id source : String) (cls : EntityClass)
  /-- Makes an entity of a class out of a text. -/
  | read (id : String) (cls : EntityClass) (text : String)
  /-- Takes the record of an entity and changes the record. -/
  | alterRecord (id : String)
  | toJson (id : String) (indent : Option Int)
  | toHtml (id : String) (style : Option RenderStyle) (childRenderer : Option Renderer)
  | describe (id : String)
  | compare (id other : String)

/-- What a step answers. -/
inductive SessionAnswer where
  | entity (e : Entity)
  | text (s : String)
  | truth (b : Bool)

/-- Why a step fails. -/
inductive SessionError where
  /-- The identifier names nothing, which has no such member. -/
  | nothing (member : String)
  | missing (error : MissingMember)
  | read (error : ReadError)

def SessionError.message : SessionError → String
  | .nothing member => s!"'NoneType' object has no attribute '{member}'"
  | .missing error => error.message
  | .read error => error.message

namespace Session

/-- A session in which nothing has been made. -/
def empty : Session :=
  ⟨[], []⟩

def ref? (s : Session) (id : String) : Option Ref :=
  s.names.lookup id

/-- Lets an identifier name an object. -/
def bindName (s : Session) (id : String) (r : Ref) : Session :=
  { s with names := (id, r) :: s.names }

def insert (s : Session) (o : StoredEntity) : Session × Ref :=
  ({ s with objects := s.objects ++ [o] }, s.objects.length)

def update (s : Session) (r : Ref) (f : StoredEntity → StoredEntity) : Session :=
  { s with objects := s.objects.modify r f }

/-- The entity at a place, down to `depth` levels of children. -/
def view (objects : List StoredEntity) : Nat → Ref → Entity
  | 0, r =>
    let o := objects.getD r default
    ⟨o.cls, o.name, o.attributes, []⟩
  | depth + 1, r =>
    let o := objects.getD r default
    ⟨o.cls, o.name, o.attributes, o.children.map (view objects depth)⟩

/-- The entity at a place. No chain of children is longer than there are objects, since none is
its own descendant. -/
def entityAt (s : Session) (r : Ref) : Entity :=
  view s.objects s.objects.length r

/-- The entity that an identifier names. -/
def entity? (s : Session) (id : String) : Option Entity :=
  (s.ref? id).map s.entityAt

mutual

/-- Adds an entity to the store: its children first, then the entity itself. -/
def insertEntity (s : Session) : Entity → Session × Ref
  | ⟨cls, name, attributes, children⟩ =>
    let (s, refs) := insertAll s children
    s.insert ⟨cls, name, attributes, refs⟩

/-- Adds entities to the store. -/
def insertAll (s : Session) : List Entity → Session × List Ref
  | [] => (s, [])
  | e :: es =>
    let (s, r) := insertEntity s e
    let (s, rs) := insertAll s es
    (s, r :: rs)

end

/-- What is asked of the object that an identifier names; an identifier that names nothing has no
`member`. -/
def withRef {α : Type} (s : Session) (id member : String) (f : Ref → Except SessionError α) :
    Except SessionError α :=
  match s.ref? id with
  | some r => f r
  | none => .error (.nothing member)

/-- What is asked of the entity that an identifier names. -/
def withEntity {α : Type} (s : Session) (id member : String)
    (f : Entity → Except SessionError α) : Except SessionError α :=
  s.withRef id member fun r => f (s.entityAt r)

/-- Stores a new entity under an identifier. -/
def store (s : Session) (id : String) (e : Entity) : Session :=
  let (s, r) := s.insertEntity e
  s.bindName id r

/-- Writes an attribute of the object at a place. -/
def writeAttribute (s : Session) (r : Ref) (key value : Value) : Except SessionError Session :=
  match key.toKey? with
  | none => .error (.read (.record (.badKey key)))
  | some k => .ok (s.update r fun o => { o with attributes := o.attributes.put k value })

/-- Adds the object at one place to the children of the object at another. -/
def adopt (s : Session) (r child : Ref) : Except SessionError Session :=
  let o := s.objects.getD r default
  if o.cls.isContainer then
    .ok (s.update r fun o => { o with children := o.children ++ [child] })
  else .error (.missing ⟨o.cls, "add_child"⟩)

/-- Two identifiers name equal entities, or both name nothing. -/
def compare (s : Session) (id other : String) : Bool :=
  match s.entity? id, s.entity? other with
  | some a, some b => a.same b
  | none, none => true
  | _, _ => false

/-- The session after a step that changes something; other steps leave it as it is. -/
def change (s : Session) : SessionStep → Except SessionError Session
  | .create id cls name => .ok (s.store id (.new cls name))
  | .attribute id key value => s.withRef id "add_attribute" fun r => s.writeAttribute r key value
  | .adopt id child =>
    s.withRef id "add_child" fun r => s.withRef child "to_dict" fun c => s.adopt r c
  | .convert id source cls =>
    if cls = .base then .error (.read (.noReader cls))
    else
      s.withEntity source "to_dict" fun e =>
        match Entity.rebuild cls e.toValue with
        | .error error => .error (.read error)
        | .ok e => .ok (s.store id e)
  | .read id cls text =>
    match Entity.ofJson cls text with
    | .error error => .error (.read error)
    | .ok e => .ok (s.store id e)
  | _ => .ok s

/-- What a step answers, in the session that it leads to. -/
def answer (s : Session) : SessionStep → Except SessionError SessionAnswer
  | .create id .. => s.withEntity id "to_dict" fun e => .ok (.entity e)
  | .attribute id .. => s.withEntity id "add_attribute" fun e => .ok (.entity e)
  | .adopt id _ => s.withEntity id "add_child" fun e => .ok (.entity e)
  | .convert id .. => s.withEntity id "to_dict" fun e => .ok (.entity e)
  | .read id .. => s.withEntity id "to_dict" fun e => .ok (.entity e)
  | .alterRecord id => s.withEntity id "to_dict" fun e => .ok (.entity e)
  | .toJson id indent => s.withEntity id "to_json" fun e => .ok (.text (e.toJson indent))
  | .toHtml id style childRenderer =>
    s.withEntity id "to_html" fun e =>
      match e.render none style childRenderer with
      | .error error => .error (.missing error)
      | .ok html => .ok (.text html)
  | .describe id =>
    match s.entity? id with
    | some e => .ok (.text e.describe)
    | none => .ok (.text Value.null.literal)
  | .compare id other => .ok (.truth (s.compare id other))

/-- Takes a step. -/
def step (s : Session) (t : SessionStep) : Session × Except SessionError SessionAnswer :=
  match s.change t with
  | .error error => (s, .error error)
  | .ok s' => (s', s'.answer t)

end Session

end TagOutline
