import TagOutline.Dialect
import TagOutline.Tag.Line

/-!
# Outline options

Which tags open the containers and the children of an outline, and what classes they get. The four
choices are free of each other; a dialect makes all of them. Where both tags are the same, it opens
containers.
-/

namespace TagOutline

/-- The tags that open entities and the classes of the entities. -/
structure OutlineOptions where
  containerTag : String
  childTag : String
  containerClass : EntityClass
  childClass : EntityClass
  deriving DecidableEq

/-- What a tag does to the outline. -/
inductive TagRole where
  | opensContainer
  | opensChild
  /-- A sigil without a key. -/
  | bare
  | attribute
  deriving DecidableEq, Repr

namespace OutlineOptions

/-- The options of a dialect. -/
def ofDialect (d : Dialect) : OutlineOptions :=
  ⟨d.containerTag, d.childTag, d.containerClass, d.childClass⟩

instance : Inhabited OutlineOptions :=
  ⟨ofDialect .form⟩

/-- The role of a key. The container tag goes before the child tag, and both go before the absence
of a key. -/
def role (o : OutlineOptions) (key : String) : TagRole :=
  if key = o.containerTag then .opensContainer
  else if key = o.childTag then .opensChild
  else if key = "" then .bare
  else .attribute

variable {o : OutlineOptions} {key : String}

theorem role_eq_opensContainer_iff : o.role key = .opensContainer ↔ key = o.containerTag := by
  grind [role]

theorem role_eq_opensChild_iff :
    o.role key = .opensChild ↔ key = o.childTag ∧ key ≠ o.containerTag := by
  grind [role]

theorem role_eq_bare_iff :
    o.role key = .bare ↔ key = "" ∧ key ≠ o.containerTag ∧ key ≠ o.childTag := by
  grind [role]

theorem role_eq_attribute_iff :
    o.role key = .attribute ↔ key ≠ "" ∧ key ≠ o.containerTag ∧ key ≠ o.childTag := by
  grind [role]

end OutlineOptions

end TagOutline
