import TagOutline.Proofs.Entity.Html
import TagOutline.Proofs.Outline.Printing

/-!
# Rendered outlines

What is read from tag lines has no line feeds: a tag ends with its line. So a container of an
outline is rendered on one line for each of its children, between the line that opens it and the
line that closes it. This holds of children that are rendered as such. A child of a class of
containers is rendered as a container, on lines of its own.
-/

namespace TagOutline

namespace Tag

theorem IsKey.oneLine {s : String} (h : IsKey s) : '\n' ∉ s.toList := by
  intro hmem
  have blank := h '\n' hmem
  revert blank
  decide

end Tag

namespace Entity

variable {o : OutlineOptions} {e : Entity}

theorem IsPlain.isOneLine (h : e.IsPlain o) : e.IsOneLine where
  name := h.isValue_name.oneLine
  keys := by
    intro a ha
    obtain ⟨w, rfl, entry⟩ := h.attributes a ha
    exact entry.key.solid.oneLine
  values := by
    intro a ha
    obtain ⟨w, rfl, entry⟩ := h.attributes a ha
    exact entry.value.oneLine

end Entity

/-- The HTML of a container whose children are rendered as children has two lines more than there
are children. The first one opens it, the last one closes it, and between them stand the children in
their order, each of them behind the indent. -/
theorem outline_rendered {o : OutlineOptions} {text : String} {es : List Entity}
    (read : (outline o text).result = .ok es) {e : Entity} (he : e ∈ es)
    (container : e.cls.isContainer = true) (leaves : ∀ d ∈ e.children, d.IsLeaf)
    {style : RenderStyle} (oneLine : style.IsOneLine) :
    ∃ html name, e.name = .text name ∧ e.render none (some style) none = .ok html ∧
      (html.toList.splitOn '\n').length = e.children.length + 2 ∧
      (html.toList.splitOn '\n')[0]? = some s!"<{style.containerTag} name=\"{name}\">".toList ∧
      (∀ i d, e.children[i]? = some d →
        (html.toList.splitOn '\n')[i + 1]? = some (style.indent ++ d.childHtml style).toList ∧
          d.render none (some style) none = .ok (d.childHtml style)) ∧
      (html.toList.splitOn '\n')[e.children.length + 1]? =
        some s!"</{style.containerTag}>".toList := by
  have outlined := isOutlined_of_outline read e he
  obtain ⟨name, hname, -⟩ := outlined.name
  have plain : ∀ d ∈ e.children, d.IsOneLine := fun d hd => (outlined.children d hd).2.2.isOneLine
  have rendered := Entity.toHtml_of_container container leaves style
  refine ⟨_, name, hname, (e.render_style style).trans rendered, ?_⟩
  rw [Entity.splitOn_htmlLines oneLine outlined.isOneLine plain, Entity.htmlLines]
  refine ⟨by simp, ?_, ?_, by simp⟩
  · simp [Entity.nameHtml, hname, Value.plain, toString, String.append_assoc]
  · intro i d hd
    obtain ⟨inside, here⟩ := List.getElem?_eq_some_iff.mp hd
    have leaf := Entity.toHtml_of_isLeaf (leaves d (List.mem_of_getElem? hd)) style
    refine ⟨?_, (d.render_style style).trans leaf⟩
    simp [List.getElem?_append_left, inside, here]

/-- A form in a form is rendered on two lines, as it is without children. -/
theorem outline_rendered_form_in_form :
    let o : OutlineOptions := ⟨"form", "input", .form, .form⟩
    let e : Entity := ⟨.form, .text "A", [], [⟨.form, .text "b", [], []⟩]⟩
    (outline o "@form A\n@input b").result = .ok [e] ∧ RenderStyle.standard.IsOneLine ∧
      ∃ html, e.render none (some .standard) none = .ok html ∧
        (html.toList.splitOn '\n').length ≠ e.children.length + 2 := by
  intro o e
  refine ⟨rfl, ⟨by decide, by decide, by decide⟩, _, rfl, ?_⟩
  decide +kernel

/-- A form with two inputs. Quotes and brackets are not escaped, and the description is not
shown. -/
theorem outline_rendered_form :
    let e : Entity := ⟨.form, .text "A>", [(.text "x", .text "1")],
      [⟨.input, .text "b", [(.text "k", .text "\"<")], []⟩,
        ⟨.input, .text "c d", [(.text "desc", .text "last")], []⟩]⟩
    ∃ html, (outline (.ofDialect .form)
        "@form A>\n@x 1\n@input b\n@k \"<\ntext\n@input c d\n@desc last").result = .ok [e] ∧
      e.render none (some .standard) none = .ok html ∧
      (html.toList.splitOn '\n').length = 4 ∧
      (html.toList.splitOn '\n')[1]? = some "  <input name=\"b\" k=\"\"<\" />".toList := by
  intro e
  have read : (outline (.ofDialect .form)
      "@form A>\n@x 1\n@input b\n@k \"<\ntext\n@input c d\n@desc last").result = .ok [e] := rfl
  have leaves : ∀ d ∈ e.children, d.IsLeaf := by
    intro d hd
    rcases List.mem_cons.mp hd with rfl | hd
    · exact ⟨by decide, rfl⟩
    · obtain rfl := List.mem_singleton.mp hd
      exact ⟨by decide, rfl⟩
  have oneLine : RenderStyle.standard.IsOneLine := ⟨by decide, by decide, by decide⟩
  obtain ⟨html, name, -, rendered, count, -, lines, -⟩ :=
    outline_rendered read (List.mem_singleton_self e) rfl leaves oneLine
  exact ⟨html, read, rendered, count, (lines 0 _ rfl).1⟩

end TagOutline
