import TagOutline.Outline.Options

/-!
# Drafts

Containers and children as the tags write them: with each attribute that was written, in order and
with repetitions. The entity of a draft keeps the last value of each attribute.
-/

namespace TagOutline

/-- An attribute that was written. -/
abbrev Write :=
  String × String

/-- A child with what was written to it. -/
structure ChildDraft where
  name : String
  writes : List Write
  deriving DecidableEq, Inhabited

/-- A container with what was written to it and its children. -/
structure ContainerDraft where
  name : String
  writes : List Write
  children : List ChildDraft
  deriving DecidableEq, Inhabited

/-- The attributes that writes lead to. -/
def attributesOf (writes : List Write) : Fields Value :=
  Fields.ofList (writes.map fun w => (Key.text w.1, Value.text w.2))

def ChildDraft.new (name : String) : ChildDraft :=
  ⟨name, []⟩

def ChildDraft.write (d : ChildDraft) (w : Write) : ChildDraft :=
  { d with writes := d.writes ++ [w] }

def ChildDraft.toEntity (cls : EntityClass) (d : ChildDraft) : Entity :=
  ⟨cls, .text d.name, attributesOf d.writes, []⟩

def ContainerDraft.new (name : String) : ContainerDraft :=
  ⟨name, [], []⟩

def ContainerDraft.write (c : ContainerDraft) (w : Write) : ContainerDraft :=
  { c with writes := c.writes ++ [w] }

def ContainerDraft.addChild (c : ContainerDraft) (d : ChildDraft) : ContainerDraft :=
  { c with children := c.children ++ [d] }

def ContainerDraft.toEntity (o : OutlineOptions) (c : ContainerDraft) : Entity :=
  ⟨o.containerClass, .text c.name, attributesOf c.writes,
    c.children.map (ChildDraft.toEntity o.childClass)⟩

end TagOutline
