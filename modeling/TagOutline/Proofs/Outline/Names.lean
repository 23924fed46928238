import Mathlib.Data.List.Nodup
import TagOutline.Proofs.Entity.Attributes
import TagOutline.Proofs.Outline.Printing

/-!
# Names in the element of a child

The keys of a child that was read from tag lines are all different, so no two of its attributes are
written under one name. But its own name is written as an attribute too, in front of the others, and
nothing keeps a tag line from having the key `name`. Where such a line writes to the child and the
attribute is not left out, the name `name` stands in the element twice. No other name does.
-/

namespace TagOutline

/-- What is written to the children of a reading is found among what is read. -/
theorem OutlineOptions.mem_of_mem_reading {o : OutlineOptions} {es : List Write}
    {c : ContainerDraft} (hc : c ∈ o.reading es) {d : ChildDraft} (hd : d ∈ c.children) {w : Write}
    (hw : w ∈ d.writes) : w ∈ es ∧ o.role w.1 = .attribute := by
  obtain ⟨opening, hopening, rfl⟩ := List.mem_map.mp hc
  obtain ⟨inner, hinner, rfl⟩ := List.mem_map.mp hd
  obtain ⟨-, behind⟩ := mem_openings hopening
  obtain ⟨-, inside⟩ := mem_openings hinner
  obtain ⟨found, role⟩ := mem_writesIn hw
  exact ⟨behind (untilContainer_subset opening.2 (inside found)), role⟩

/-- An attribute of a child comes from a tag of its key. -/
theorem exists_tag_of_attribute {o : OutlineOptions} {text : String} {es : List Entity}
    (read : (outline o text).result = .ok es) {e d : Entity} (he : e ∈ es) (hd : d ∈ e.children)
    {key : String} {v : Value} (present : (.text key, v) ∈ d.attributes) :
    ∃ t ∈ (Source.ofText text).ahead, t.key = key ∧ o.role key = .attribute := by
  rw [entities_of_outline read] at he
  obtain ⟨c, hc, rfl⟩ := List.mem_map.mp he
  obtain ⟨b, hb, rfl⟩ := List.mem_map.mp hd
  have keyed : Key.text key ∈ (attributesOf b.writes).map Prod.fst := List.mem_map_of_mem present
  rw [keys_attributesOf] at keyed
  obtain ⟨k, hk, same⟩ := List.mem_map.mp keyed
  obtain ⟨w, hw, rfl⟩ := List.mem_map.mp (List.mem_eraseDups.mp hk)
  obtain rfl : w.1 = key := Key.text.inj same
  obtain ⟨tagged, role⟩ := OutlineOptions.mem_of_mem_reading hc hb hw
  obtain ⟨t, ht, rfl⟩ := List.mem_map.mp tagged
  exact ⟨t, ht, rfl, role⟩

namespace Entity

variable {o : OutlineOptions} {d : Entity}

/-- The attributes of a plain entity that are shown have different names. -/
theorem IsPlain.nodup_shown (h : d.IsPlain o) (ignored : List Key) :
    ((shownAttributes ignored d.attributes).map fun a => Value.plainKey a.1).Nodup := by
  have keys : ((shownAttributes ignored d.attributes).map Prod.fst).Nodup :=
    (List.filter_sublist.map Prod.fst).nodup h.distinct
  have apart : ∀ a ∈ shownAttributes ignored d.attributes,
      ∀ b ∈ shownAttributes ignored d.attributes,
        Value.plainKey a.1 = Value.plainKey b.1 → a.1 = b.1 := by
    intro a ha b hb same
    obtain ⟨v, rfl, -⟩ := h.attributes a (List.mem_filter.mp ha).1
    obtain ⟨w, rfl, -⟩ := h.attributes b (List.mem_filter.mp hb).1
    exact congrArg Key.text same
  rw [List.Nodup, List.pairwise_map] at keys ⊢
  exact keys.imp_of_mem fun ha hb differ same => differ (apart _ ha _ hb same)

/-- A name is shown if there is an attribute of that key that is not left out. -/
theorem IsPlain.mem_shown_iff (h : d.IsPlain o) (ignored : List Key) (name : String) :
    name ∈ (shownAttributes ignored d.attributes).map (fun a => Value.plainKey a.1) ↔
      (∃ v, (.text name, v) ∈ d.attributes) ∧ ignored.any (Key.text name).same = false := by
  constructor
  · intro shown
    obtain ⟨a, ha, key⟩ := List.mem_map.mp shown
    obtain ⟨present, kept⟩ := List.mem_filter.mp ha
    obtain ⟨w, rfl, -⟩ := h.attributes a present
    obtain rfl : w.1 = name := key
    exact ⟨⟨_, present⟩, by simpa using kept⟩
  · rintro ⟨⟨v, present⟩, kept⟩
    exact List.mem_map.mpr ⟨(.text name, v), List.mem_filter.mpr ⟨present, by rw [kept]; rfl⟩, rfl⟩

end Entity

/-- The names in the element of a child of an outline are `name` and, behind it, the keys of its
attributes that are not left out. These keys are all different. So every name is written once, but
for `name` itself: it is written twice if the child has an attribute of this key that is not left
out. Then one of the tags of the text has this key. -/
theorem outline_names_written {o : OutlineOptions} {text : String} {es : List Entity}
    (read : (outline o text).result = .ok es) {e d : Entity} (he : e ∈ es) (hd : d ∈ e.children)
    (style : RenderStyle) :
    let names := (d.writtenAttributes style).map Prod.fst
    d.childHtml style = "<" ++ style.childTag ++
      String.join ((d.writtenAttributes style).map fun a => " " ++ a.1 ++ "=\"" ++ a.2 ++ "\"") ++
      " />" ∧
    names = "name" ::
      (Entity.shownAttributes style.ignored d.attributes).map (fun a => Value.plainKey a.1) ∧
    names.tail.Nodup ∧
    (names.Nodup ↔ ¬ ((∃ v, (.text "name", v) ∈ d.attributes) ∧
      style.ignored.any (Key.text "name").same = false)) ∧
    (¬ names.Nodup → names.count "name" = 2 ∧
      ∃ t ∈ (Source.ofText text).ahead, t.key = "name" ∧ o.role "name" = .attribute) := by
  intro names
  have plain : d.IsPlain o := ((isOutlined_of_outline read e he).children d hd).2.2
  have whole : names = "name" ::
      (Entity.shownAttributes style.ignored d.attributes).map (fun a => Value.plainKey a.1) := by
    simp [names, Entity.writtenAttributes, Function.comp_def]
  have others := plain.nodup_shown style.ignored
  have again := plain.mem_shown_iff style.ignored "name"
  refine ⟨d.childHtml_eq_join style, whole, by rw [whole]; exact others, ?_, ?_⟩
  · rw [whole, List.nodup_cons, again, and_iff_left others]
  · intro repeated
    rw [whole, List.nodup_cons, and_iff_left others, not_not] at repeated
    obtain ⟨⟨v, present⟩, -⟩ := again.mp repeated
    refine ⟨?_, exists_tag_of_attribute read he hd present⟩
    rw [whole, List.count_cons_self, List.count_eq_one_of_mem others repeated]

/-- An input with an attribute of the key `name`: with nothing left out its element has two names,
and with this key left out it has one. -/
theorem outline_names_written_left_out :
    let d : Entity :=
      ⟨.input, .text "b", [(.text "type", .text "t"), (.text "name", .text "c")], []⟩
    let e : Entity := ⟨.form, .text "A", [], [d]⟩
    let style : RenderStyle := ⟨"form", "input", "  ", [.text "name"]⟩
    (outline (.ofDialect .form) "@form A\n@input b\n@type t\n@name c").result = .ok [e] ∧
      ((d.writtenAttributes style).map Prod.fst).Nodup ∧
      ¬ ((d.writtenAttributes .standard).map Prod.fst).Nodup ∧
      ((d.writtenAttributes .standard).map Prod.fst).count "name" = 2 := by
  intro d e style
  have read : (outline (.ofDialect .form) "@form A\n@input b\n@type t\n@name c").result =
      .ok [e] := rfl
  have member : e ∈ [e] := List.mem_singleton_self e
  have child : d ∈ e.children := List.mem_singleton_self d
  obtain ⟨-, -, -, distinct, -⟩ := outline_names_written read member child style
  obtain ⟨-, -, -, standard, twice⟩ := outline_names_written read member child .standard
  have repeated : ¬ ((d.writtenAttributes .standard).map Prod.fst).Nodup := by
    rw [standard, not_not]
    exact ⟨⟨.text "c", by simp [d]⟩, rfl⟩
  refine ⟨read, distinct.mpr fun h => ?_, repeated, (twice repeated).1⟩
  exact absurd h.2 (by decide)

/-- The tag of an attribute has the key `name`, and the element of the child has this name twice. -/
theorem outline_names_written_twice :
    let d : Entity :=
      ⟨.input, .text "b", [(.text "name", .text "c"), (.text "type", .text "t")], []⟩
    (outline (.ofDialect .form) "\n@form A\n@input b\n@name c\n@type t\n").result =
        .ok [⟨.form, .text "A", [], [d]⟩] ∧
      d.childHtml .standard = "<input name=\"b\" name=\"c\" type=\"t\" />" ∧
      ¬ ((d.writtenAttributes .standard).map Prod.fst).Nodup := by
  refine ⟨rfl, rfl, by decide⟩

end TagOutline
