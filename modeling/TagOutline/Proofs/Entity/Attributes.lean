import Mathlib.Data.List.Forall2
import TagOutline.Proofs.Entity.Html

/-!
# Written attributes

The element of a child carries its name and behind it the attributes that are not left out, each
with one blank before it. What is left out has no influence at all: neither on the elements of
children nor on that of a container, whose own attributes are never written.
-/

namespace TagOutline

namespace Entity

/-- The attributes in the element of a child as they are shown: its name, and those that are not
left out. -/
def writtenAttributes (style : RenderStyle) (e : Entity) : List (String × String) :=
  ("name", e.name.plain) ::
    (shownAttributes style.ignored e.attributes).map fun a => (Value.plainKey a.1, a.2.plain)

/-- Two children that differ only in their classes and in attributes that are left out. Neither of
them is rendered as a container. Entities of the base class have no rendering, so both are of it or
none is. -/
structure LooksAlike (ignored : List Key) (d e : Entity) : Prop where
  leaf : d.cls.isContainer = false
  leafOther : e.cls.isContainer = false
  able : d.cls = .base ↔ e.cls = .base
  name : d.name = e.name
  shown : shownAttributes ignored d.attributes = shownAttributes ignored e.attributes

variable {style : RenderStyle} {c d e : Entity} {ds es : List Entity}

/-! The element of a child. -/

theorem attributeHtml_ne_empty (key : Key) (value : Value) : attributeHtml key value ≠ "" := by
  intro h
  simp [attributeHtml, toString] at h

/-- A blank before each text is a blank before all of them with a blank between two of them. -/
theorem join_map_blank {ls : List String} (h : ls ≠ []) :
    String.join (ls.map (" " ++ ·)) = " " ++ " ".intercalate ls := by
  induction ls with
  | nil => exact absurd rfl h
  | cons l ls ih =>
    cases ls with
    | nil => simp
    | cons m ls =>
      rw [List.map_cons, String.join_cons, ih (by simp), String.intercalate_cons_cons]
      simp only [String.append_assoc]

/-- The element of a child has its attributes in it with one blank before each, whatever is left
out. -/
theorem childHtml_eq_join (style : RenderStyle) (e : Entity) :
    e.childHtml style = "<" ++ style.childTag ++
      String.join ((e.writtenAttributes style).map fun a => " " ++ a.1 ++ "=\"" ++ a.2 ++ "\"") ++
      " />" := by
  let shown := (shownAttributes style.ignored e.attributes).map fun a => attributeHtml a.1 a.2
  have each : ∀ l ∈ shown, l ≠ "" := by
    intro l hl
    obtain ⟨a, -, rfl⟩ := List.mem_map.mp hl
    exact attributeHtml_ne_empty a.1 a.2
  have others : (shownAttributes style.ignored e.attributes).map (fun a =>
      " " ++ Value.plainKey a.1 ++ "=\"" ++ a.2.plain ++ "\"") = shown.map (" " ++ ·) := by
    rw [List.map_map]
    apply List.map_congr_left
    intro a _
    simp [attributeHtml, toString, String.append_assoc]
  rw [writtenAttributes, List.map_cons, List.map_map]
  simp only [Function.comp_def]
  rw [others, String.join_cons, childHtml]
  by_cases nothing : shown = []
  · have empty : (attributesHtml style.ignored e.attributes).isEmpty = true := by
      rw [String.isEmpty_iff]
      exact (Text.intercalate_eq_empty_iff (by decide) each).mpr nothing
    rw [if_pos empty, nothing, ← String.toList_inj]
    simp [nameHtml, toString]
  · have something : ¬ (attributesHtml style.ignored e.attributes).isEmpty = true := by
      rw [String.isEmpty_iff]
      exact fun empty => nothing ((Text.intercalate_eq_empty_iff (by decide) each).mp empty)
    rw [if_neg something, join_map_blank nothing, ← String.toList_inj]
    simp [shown, attributesHtml, nameHtml, toString]

/-! What is left out. -/

theorem toHtml_of_isContainer (container : c.cls.isContainer = true) (style : RenderStyle) :
    toHtml style none c = (childrenHtml style none c.children).map (containerHtml style c) := by
  obtain ⟨cls, name, attributes, children⟩ := c
  have able : cls ≠ .base := by
    rintro rfl
    cases container
  rw [toHtml, if_neg able, if_pos container]
  cases childrenHtml style none children <;> rfl

/-- Only the name of a container is written. -/
theorem containerHtml_congr (h : c.name = d.name) (style : RenderStyle) :
    containerHtml style c = containerHtml style d := by
  funext lines
  simp only [containerHtml, nameHtml, h]

theorem LooksAlike.childHtml (h : LooksAlike style.ignored d e) :
    d.childHtml style = e.childHtml style := by
  have name : d.nameHtml = e.nameHtml := by rw [nameHtml, nameHtml, h.name]
  have attributes : attributesHtml style.ignored d.attributes =
      attributesHtml style.ignored e.attributes := by
    rw [attributesHtml, attributesHtml, h.shown]
  rw [Entity.childHtml, Entity.childHtml, name, attributes]

theorem LooksAlike.toHtml (h : LooksAlike style.ignored d e) :
    toHtml style none d = toHtml style none e := by
  by_cases base : d.cls = .base
  · have other : e.cls = .base := h.able.mp base
    obtain ⟨cls, name, attributes, children⟩ := d
    obtain ⟨cls', name', attributes', children'⟩ := e
    obtain rfl : cls = .base := base
    obtain rfl : cls' = .base := other
    simp only [Entity.toHtml, if_pos]
  · have first : d.IsLeaf := ⟨base, h.leaf⟩
    have second : e.IsLeaf := ⟨fun other => base (h.able.mpr other), h.leafOther⟩
    rw [toHtml_of_isLeaf first, toHtml_of_isLeaf second, h.childHtml]

theorem childrenHtml_of_looksAlike (h : List.Forall₂ (LooksAlike style.ignored) ds es) :
    childrenHtml style none ds = childrenHtml style none es := by
  induction h with
  | nil => rfl
  | cons first _ ih => simp only [childrenHtml, first.toHtml, ih]

/-- The HTML of a container does not depend on the attributes that are left out: two containers with
one name and with children that look alike in turn are rendered alike, whatever other attributes
they and their children have. They can be rendered if no child is of the base class. And the element
of a child is its name and after it each attribute that is not left out, in order, with one blank
before each of them. -/
theorem render_hides_ignored (style : RenderStyle) :
    (∀ c d : Entity, c.cls.isContainer = true → d.cls.isContainer = true → c.name = d.name →
      List.Forall₂ (LooksAlike style.ignored) c.children d.children →
      c.render none (some style) none = d.render none (some style) none ∧
      ((∀ e ∈ c.children, e.cls ≠ .base) →
        ∃ html, c.render none (some style) none = .ok html)) ∧
    ∀ e : Entity,
      e.childHtml style = "<" ++ style.childTag ++ " name=\"" ++ e.name.plain ++ "\"" ++
        String.join ((e.attributes.filter fun a => !style.ignored.any a.1.same).map fun a =>
          " " ++ Value.plainKey a.1 ++ "=\"" ++ a.2.plain ++ "\"") ++ " />" ∧
      (e.IsLeaf → e.render none (some style) none = .ok (e.childHtml style)) := by
  refine ⟨?_, ?_⟩
  · intro c d container other name alike
    rw [render_style, render_style, toHtml_of_isContainer container, toHtml_of_isContainer other,
      containerHtml_congr name, childrenHtml_of_looksAlike alike]
    refine ⟨rfl, ?_⟩
    intro able
    have leaves : ∀ e ∈ c.children, e.IsLeaf := by
      intro e he
      obtain ⟨i, inside, rfl⟩ := List.mem_iff_getElem.mp he
      have partner := alike.length_eq ▸ inside
      exact ⟨able _ he, (alike.get inside partner).leaf⟩
    rw [← childrenHtml_of_looksAlike alike, childrenHtml_of_isLeaf leaves]
    exact ⟨_, rfl⟩
  · intro e
    refine ⟨?_, fun leaf => (e.render_style style).trans (toHtml_of_isLeaf leaf style)⟩
    rw [childHtml_eq_join, writtenAttributes, List.map_cons, List.map_map, String.join_cons]
    simp only [Function.comp_def, shownAttributes, String.append_assoc]
    rfl

/-- A form and a node whose children have other descriptions between the attributes that they
share. -/
theorem render_hides_ignored_descriptions :
    let a : Entity := ⟨.input, .text "b", [(.text "desc", .text "x"), (.text "k", .text "1"),
      (.text "j", .text "\"")], []⟩
    let b : Entity := ⟨.property, .text "b", [(.text "k", .text "1"),
      (.text "description", .text "y"), (.text "j", .text "\""), (.text "desc", .text "z")], []⟩
    let c : Entity := ⟨.form, .text "A", [(.text "title", .text "t")], [a]⟩
    let d : Entity := ⟨.node, .text "A", [], [b]⟩
    LooksAlike RenderStyle.standard.ignored a b ∧
      c.render none (some .standard) none = d.render none (some .standard) none ∧
      (∃ html, c.render none (some .standard) none = .ok html) ∧
      b.render none (some .standard) none = .ok "<input name=\"b\" k=\"1\" j=\"\"\" />" := by
  intro a b c d
  have alike : LooksAlike RenderStyle.standard.ignored a b :=
    ⟨rfl, rfl, by decide, rfl, rfl⟩
  obtain ⟨containers, children⟩ := render_hides_ignored .standard
  obtain ⟨same, rendered⟩ := containers c d rfl rfl rfl (.cons alike .nil)
  obtain ⟨element, leaf⟩ := children b
  refine ⟨alike, same, rendered ?_, ?_⟩
  · intro e he
    obtain rfl := List.mem_singleton.mp he
    decide
  · rw [leaf ⟨by decide, rfl⟩, element]
    rfl

end Entity

end TagOutline
