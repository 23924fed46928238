import TagOutline.Entity.Html
import TagOutline.Proofs.Text.Lines

/-!
# Lines of HTML

What is rendered of an entity without line feeds is one line for a child, and for a container one
line for each of its children between the line that opens it and the line that closes it. Nothing is
escaped, so a line feed anywhere would tear a line apart.
-/

namespace TagOutline

/-- None of the texts of a style has a line feed. -/
structure RenderStyle.IsOneLine (style : RenderStyle) : Prop where
  containerTag : '\n' ∉ style.containerTag.toList
  childTag : '\n' ∉ style.childTag.toList
  indent : '\n' ∉ style.indent.toList

namespace Entity

/-- Neither the name nor the attributes have a line feed when they are shown. -/
structure IsOneLine (e : Entity) : Prop where
  name : '\n' ∉ e.name.plain.toList
  keys : ∀ a ∈ e.attributes, '\n' ∉ (Value.plainKey a.1).toList
  values : ∀ a ∈ e.attributes, '\n' ∉ a.2.plain.toList

/-- An entity that is rendered as a child: not as a container, and not of the base class. -/
structure IsLeaf (e : Entity) : Prop where
  able : e.cls ≠ .base
  leaf : e.cls.isContainer = false

/-- The lines of a container, each child on one of them. -/
def htmlLines (style : RenderStyle) (e : Entity) : List String :=
  s!"<{style.containerTag} {e.nameHtml}>" ::
    e.children.map (fun d => style.indent ++ d.childHtml style) ++ [s!"</{style.containerTag}>"]

variable {style : RenderStyle} {e : Entity}

/-! Rendering. -/

/-- Without a renderer, an entity is rendered in the style that is given. -/
theorem render_style (e : Entity) (style : RenderStyle) :
    e.render none (some style) none = toHtml style none e := by
  obtain ⟨cls, name, attributes, children⟩ := e
  unfold render
  split
  next base =>
    have hcls : cls = .base := base
    rw [hcls, toHtml, if_pos rfl]
  next => rfl

theorem childrenHtml_eq_mapM (style : RenderStyle) (es : List Entity) :
    childrenHtml style none es = es.mapM fun e => e.render none (some style) none := by
  induction es with
  | nil => rfl
  | cons e es ih =>
    rw [childrenHtml, ih, List.mapM_cons, render_style]
    cases toHtml style none e with
    | error error => rfl
    | ok line =>
      cases es.mapM fun e => e.render none (some style) none with
      | error error => rfl
      | ok lines => rfl

theorem exists_childrenHtml {es : List Entity}
    (each : ∀ e ∈ es, ∃ line, toHtml style none e = .ok line) :
    ∃ lines, childrenHtml style none es = .ok lines := by
  induction es with
  | nil => exact ⟨[], rfl⟩
  | cons e es ih =>
    obtain ⟨line, hline⟩ := each e (by simp)
    obtain ⟨lines, hlines⟩ := ih fun e he => each e (List.mem_cons_of_mem _ he)
    exact ⟨line :: lines, by simp only [childrenHtml, hline, hlines]⟩

/-- An entity can be rendered if its class can be and its children can be. -/
theorem exists_toHtml (able : e.cls ≠ .base)
    (each : ∀ c ∈ e.children, ∃ line, toHtml style none c = .ok line) :
    ∃ lines, toHtml style none e = .ok lines := by
  obtain ⟨cls, name, attributes, children⟩ := e
  obtain ⟨lines, hlines⟩ := exists_childrenHtml each
  rw [toHtml, if_neg able, hlines]
  by_cases container : cls.isContainer = true
  · exact ⟨_, if_pos container⟩
  · exact ⟨_, if_neg container⟩

theorem toHtml_of_isLeaf (h : e.IsLeaf) (style : RenderStyle) :
    toHtml style none e = .ok (e.childHtml style) := by
  obtain ⟨cls, name, attributes, children⟩ := e
  have able : cls ≠ .base := h.able
  have leaf : cls.isContainer = false := h.leaf
  rw [toHtml, if_neg able, if_neg (by simp [leaf])]

theorem childrenHtml_of_isLeaf {es : List Entity} (h : ∀ e ∈ es, e.IsLeaf) (style : RenderStyle) :
    childrenHtml style none es = .ok (es.map (childHtml style)) := by
  induction es with
  | nil => rfl
  | cons e es ih =>
    have first := toHtml_of_isLeaf (h e (by simp)) style
    have others := ih fun d hd => h d (List.mem_cons_of_mem _ hd)
    simp only [childrenHtml, first, others, List.map_cons]

theorem toHtml_of_container (container : e.cls.isContainer = true)
    (h : ∀ d ∈ e.children, d.IsLeaf) (style : RenderStyle) :
    toHtml style none e = .ok ("\n".intercalate (e.htmlLines style)) := by
  obtain ⟨cls, name, attributes, children⟩ := e
  have hcls : cls.isContainer = true := container
  have able : cls ≠ .base := by
    rintro rfl
    cases hcls
  have lines := childrenHtml_of_isLeaf h style
  simp only [toHtml, if_neg able, if_pos hcls]
  rw [lines]
  simp only [containerHtml, htmlLines, List.map_map, Function.comp_def]

/-! Line feeds. -/

/-- What is joined has a line feed only if one of its parts has. -/
theorem newline_notMem_intercalate {sep : String} {ls : List String} (hsep : '\n' ∉ sep.toList)
    (h : ∀ l ∈ ls, '\n' ∉ l.toList) : '\n' ∉ (sep.intercalate ls).toList := by
  induction ls with
  | nil => simp
  | cons l ls ih =>
    have first := h l (by simp)
    have others := ih fun m hm => h m (List.mem_cons_of_mem _ hm)
    cases ls with
    | nil => simpa using first
    | cons m ls =>
      rw [String.intercalate_cons_cons, String.toList_append, String.toList_append]
      simp only [List.mem_append, not_or]
      exact ⟨⟨first, hsep⟩, others⟩

theorem newline_notMem_attributesHtml (h : e.IsOneLine) (ignored : List Key) :
    '\n' ∉ (attributesHtml ignored e.attributes).toList := by
  refine newline_notMem_intercalate (by decide) ?_
  intro l hl
  obtain ⟨a, ha, rfl⟩ := List.mem_map.mp hl
  have shown : a ∈ e.attributes := (List.mem_filter.mp ha).1
  simp [attributeHtml, toString, h.keys a shown, h.values a shown]

theorem newline_notMem_nameHtml (h : e.IsOneLine) : '\n' ∉ e.nameHtml.toList := by
  simp [nameHtml, toString, h.name]

theorem newline_notMem_childHtml (oneLine : style.IsOneLine) (h : e.IsOneLine) :
    '\n' ∉ (e.childHtml style).toList := by
  have name := newline_notMem_nameHtml h
  have attributes := newline_notMem_attributesHtml h style.ignored
  rw [childHtml]
  split
  · simp [toString, oneLine.childTag, name]
  · simp [toString, oneLine.childTag, name, attributes]

/-- The lines of a container come back when what they are joined to is cut at line feeds. -/
theorem splitOn_htmlLines (oneLine : style.IsOneLine) (h : e.IsOneLine)
    (children : ∀ d ∈ e.children, d.IsOneLine) :
    ("\n".intercalate (e.htmlLines style)).toList.splitOn '\n' =
      (e.htmlLines style).map String.toList := by
  rw [String.toList_intercalate]
  apply List.splitOn_intercalate
  · intro cs hcs
    obtain ⟨l, hl, rfl⟩ := List.mem_map.mp hcs
    rw [htmlLines, List.cons_append, List.mem_cons, List.mem_append, List.mem_map,
      List.mem_singleton] at hl
    rcases hl with rfl | ⟨d, hd, rfl⟩ | rfl
    · simp [toString, oneLine.containerTag, newline_notMem_nameHtml h]
    · simp [oneLine.indent, newline_notMem_childHtml oneLine (children d hd)]
    · simp [toString, oneLine.containerTag]
  · simp [htmlLines]

end Entity

end TagOutline
