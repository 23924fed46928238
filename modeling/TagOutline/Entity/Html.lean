import TagOutline.Entity.Basic

/-!
# Entities as HTML

A child is rendered as one element without content, a container as an element with its children
inside, one on a line. Attributes are written as they are; nothing is escaped. Some attributes only
document an entity and are left out. The rendering of an entity can be replaced by another one.
-/

namespace TagOutline

/-- The element names, the indent of a child's line and the attributes left out. -/
structure RenderStyle where
  containerTag : String
  childTag : String
  indent : String
  ignored : List Key
  deriving Inhabited

namespace RenderStyle

/-- The attributes that only document an entity. -/
def documentation : List Key :=
  [.text "desc", .text "description"]

/-- The style used where none is given. -/
def standard : RenderStyle :=
  ⟨"form", "input", "  ", documentation⟩

end RenderStyle

/-- A way to render an entity in a style, or in no style. -/
abbrev Renderer :=
  Entity → Option RenderStyle → Except MissingMember String

namespace Entity

def attributeHtml (key : Key) (value : Value) : String :=
  s!"{Value.plainKey key}=\"{value.plain}\""

/-- The attributes that are not left out. -/
def shownAttributes (ignored : List Key) (attributes : Fields Value) : Fields Value :=
  attributes.filter fun a => !ignored.any a.1.same

/-- Attributes with a blank between two of them. -/
def attributesHtml (ignored : List Key) (attributes : Fields Value) : String :=
  " ".intercalate ((shownAttributes ignored attributes).map fun a => attributeHtml a.1 a.2)

def nameHtml (e : Entity) : String :=
  s!"name=\"{e.name.plain}\""

/-- The rendering of a child: the name first, then the other attributes. -/
def childHtml (style : RenderStyle) (e : Entity) : String :=
  let attributes := attributesHtml style.ignored e.attributes
  if attributes.isEmpty then s!"<{style.childTag} {e.nameHtml} />"
  else s!"<{style.childTag} {e.nameHtml} {attributes} />"

/-- The lines of a container whose children are rendered already. -/
def containerHtml (style : RenderStyle) (e : Entity) (children : List String) : String :=
  "\n".intercalate
    (s!"<{style.containerTag} {e.nameHtml}>" :: children.map (style.indent ++ ·) ++
      [s!"</{style.containerTag}>"])

mutual

/-- Renders an entity. Entities of the base class cannot be rendered. The children of a container
are rendered by `childRenderer`, if there is one. -/
def toHtml (style : RenderStyle) (childRenderer : Option Renderer) :
    Entity → Except MissingMember String
  | ⟨cls, name, attributes, children⟩ =>
    if cls = EntityClass.base then .error ⟨cls, "to_html"⟩
    else if cls.isContainer then
      match childrenHtml style childRenderer children with
      | .error error => .error error
      | .ok lines => .ok (containerHtml style ⟨cls, name, attributes, children⟩ lines)
    else .ok (childHtml style ⟨cls, name, attributes, children⟩)

def childrenHtml (style : RenderStyle) (childRenderer : Option Renderer) :
    List Entity → Except MissingMember (List String)
  | [] => .ok []
  | e :: es =>
    match (match childRenderer with
      | none => toHtml style none e
      | some render =>
        if e.cls = EntityClass.base then .error ⟨e.cls, "to_html"⟩ else render e (some style)) with
    | .error error => .error error
    | .ok line =>
      match childrenHtml style childRenderer es with
      | .error error => .error error
      | .ok lines => .ok (line :: lines)

end

/-- Renders an entity by `renderer` if there is one, and otherwise in the style given or in the
standard one. -/
def render (e : Entity) (renderer : Option Renderer) (style : Option RenderStyle)
    (childRenderer : Option Renderer) : Except MissingMember String :=
  if e.cls = .base then .error ⟨e.cls, "to_html"⟩
  else
    match renderer with
    | some render => render e style
    | none => toHtml (style.getD .standard) childRenderer e

end Entity

end TagOutline
