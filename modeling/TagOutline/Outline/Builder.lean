import TagOutline.Entity.Session
import TagOutline.Outline.Options

/-!
# Builders

A builder makes the entities of an outline in a store. It keeps references to the open container and
to what attributes are written to, and in what phase it is.
-/

namespace TagOutline

/-- What is open: nothing, a container that attributes are written to, or a child of it. -/
inductive Phase where
  | topLevel
  | container
  | child
  deriving DecidableEq

/-- A parser that builds its entities in a store. `containers` are finished, `current` is the open
container, and attributes are written to `target`. -/
structure Builder where
  options : OutlineOptions
  session : Session
  phase : Phase
  containers : List Ref
  current : Option Ref
  target : Option Ref

namespace Builder

def new (o : OutlineOptions) : Builder :=
  ⟨o, .empty, .topLevel, [], none, none⟩

/-- Closes the open container, if there is one. -/
def close (b : Builder) : Builder :=
  { b with
    phase := .topLevel
    containers := b.containers ++ b.current.toList
    current := none
    target := none }

def openContainer (b : Builder) (t : Tag) : Builder :=
  let b := b.close
  let (session, r) := b.session.insert (.new b.options.containerClass t.value)
  { b with session, phase := .container, current := some r, target := some r }

/-- Opens a child. Where no container is open, or it takes no children, this is refused. -/
def openChild (b : Builder) (t : Tag) : Builder :=
  match b.current with
  | none => b
  | some r =>
    let (session, d) := b.session.insert (.new b.options.childClass t.value)
    match session.adopt r d with
    | .error _ => { b with session }
    | .ok session => { b with session, phase := .child, target := some d }

def writeAttribute (b : Builder) (t : Tag) : Builder :=
  if b.phase = .topLevel then b
  else
    match b.target with
    | none => b
    | some r =>
      match b.session.writeAttribute r (.text t.key) (.text t.value) with
      | .error _ => b
      | .ok session => { b with session }

def take (b : Builder) (t : Tag) : Builder :=
  match b.options.role t.key with
  | .opensContainer => b.openContainer t
  | .opensChild => b.openChild t
  | .bare => b
  | .attribute => b.writeAttribute t

/-- The builder that tags lead to. -/
def after (o : OutlineOptions) (ts : List Tag) : Builder :=
  ts.foldl take (new o)

end Builder

end TagOutline
