import TagOutline.Entity.Text
import TagOutline.Proofs.Entity.Record
import TagOutline.Proofs.Outline.Correspondence
import TagOutline.Proofs.Tag.Layout
import TagOutline.Proofs.Tag.Source

/-!
# Texts in another dialect

A text of one dialect is written in the other by changing the keys of the tags that open something.
As long as it has no attribute under the keys of the other dialect, the two texts have the same
outline: each entity has the other class, and the record that it had.
-/

namespace TagOutline

namespace Dialect

/-- The key that a tag has in another dialect. Attributes keep their keys. -/
def translatedKey (d d' : Dialect) (key : String) : String :=
  if key = d.containerTag then d'.containerTag
  else if key = d.childTag then d'.childTag
  else key

/-- A text with the key of each tag line in another dialect. -/
def translated (d d' : Dialect) (text : String) : String :=
  "\n".intercalate ((Text.lines text).map (Tag.withKey (d.translatedKey d')))

variable {d d' : Dialect}

theorem isKey_translatedKey (d d' : Dialect) (key : String) (h : Tag.IsKey key) :
    Tag.IsKey (d.translatedKey d' key) := by
  unfold translatedKey
  split
  · cases d' <;> decide
  · split
    · cases d' <;> decide
    · exact h

theorem containerTag_ne_childTag (d : Dialect) : d.containerTag ≠ d.childTag := by
  cases d <;> decide

/-- A tag has the same role in either dialect. -/
theorem role_translatedKey {key : String} (notContainer : key ≠ d'.containerTag)
    (notChild : key ≠ d'.childTag) :
    (OutlineOptions.ofDialect d').role (d.translatedKey d' key) =
      (OutlineOptions.ofDialect d).role key := by
  have apart := d'.containerTag_ne_childTag
  simp only [translatedKey, OutlineOptions.role, OutlineOptions.ofDialect]
  by_cases hc : key = d.containerTag
  · simp [hc]
  · by_cases hd : key = d.childTag
    · subst hd
      simp [hc, apart.symm]
    · simp [hc, hd, notContainer, notChild]

/-- The tags of a translated text are those of the text with their keys translated. -/
theorem ahead_translated (d d' : Dialect) (text : String) :
    (Source.ofText (d.translated d' text)).ahead =
      (Source.ofText text).ahead.map fun t => { t with key := d.translatedKey d' t.key } := by
  have keys := isKey_translatedKey d d'
  have oneLine : ∀ l ∈ (Text.lines text).map (Tag.withKey (d.translatedKey d')),
      '\n' ∉ l.toList := by
    intro l hl
    obtain ⟨m, hm, rfl⟩ := List.mem_map.mp hl
    exact Tag.newline_notMem_withKey keys (Text.newline_notMem_of_mem_lines hm)
  rw [translated, Source.ahead_ofText_intercalate oneLine, Source.ahead_ofText]
  exact Source.tagsAfter_map (Tag.ofLine?_withKey keys) 0 _

/-- The tags of the two texts mean the same. -/
theorem corresponds_translated {t : Tag} (notContainer : t.key ≠ d'.containerTag)
    (notChild : t.key ≠ d'.childTag) :
    t.Corresponds (.ofDialect d) (.ofDialect d') id { t with key := d.translatedKey d' t.key } := by
  refine ⟨role_translatedKey notContainer notChild, ?_, rfl, rfl⟩
  intro role
  obtain ⟨-, hc, hd⟩ := OutlineOptions.role_eq_attribute_iff.mp role
  have hc : t.key ≠ d.containerTag := hc
  have hd : t.key ≠ d.childTag := hd
  simp [translatedKey, hc, hd]

/-- The entity of a draft in one dialect is rebuilt from its record in the other. -/
theorem rebuild_toEntity (d d' : Dialect) (c : ContainerDraft) :
    Entity.rebuild d'.containerClass (c.toEntity (.ofDialect d)).toValue =
      .ok (c.toEntity (.ofDialect d')) := by
  have readable : d'.containerClass ≠ .base := by cases d' <;> decide
  have container : (c.toEntity (.ofDialect d)).cls.isContainer = true := by cases d <;> rfl
  have wanted : d'.containerClass.isContainer = true := by cases d' <;> rfl
  have same : (c.toEntity (.ofDialect d)).recast d'.containerClass = c.toEntity (.ofDialect d') := by
    simp only [Entity.recast, ContainerDraft.toEntity, List.map_map, d'.childClass_containerClass]
    rfl
  rw [Entity.rebuild, if_neg readable, Entity.ofValue_toValue container wanted, same]
  rfl

theorem mapM_rebuild_toEntity (d d' : Dialect) (cs : List ContainerDraft) :
    (cs.map (ContainerDraft.toEntity (.ofDialect d))).mapM
        (fun e => Entity.rebuild d'.containerClass e.toValue) =
      .ok (cs.map (ContainerDraft.toEntity (.ofDialect d'))) := by
  induction cs with
  | nil => rfl
  | cons c cs ih =>
    rw [List.map_cons, List.mapM_cons, rebuild_toEntity, ih]
    rfl

end Dialect

/-- A text whose tags have no keys of another dialect has the outline of its translation into that
dialect. Either both texts fail, with the same message and at the same line, or neither does, and
then the entities of each are rebuilt from the records of the other's, all in their order. -/
theorem outline_translated (d d' : Dialect) (text : String)
    (apart : ∀ t ∈ (Source.ofText text).ahead, t.key ≠ d'.containerTag ∧ t.key ≠ d'.childTag) :
    let here := (outline (.ofDialect d) text).result
    let there := (outline (.ofDialect d') (d.translated d' text)).result
    ((∃ e, here = .error e) ↔ ∃ e, there = .error e) ∧
    (∀ e e', here = .error e → there = .error e' → ∃ line content content',
      e = .orphanChild line content ∧ e' = .orphanChild line content' ∧
        (orphanReport line content').message = (orphanReport line content).message) ∧
    (∀ es, here = .ok es → ∃ es', there = .ok es' ∧
      es.mapM (fun e => Entity.rebuild d'.containerClass e.toValue) = .ok es' ∧
      es'.mapM (fun e => Entity.rebuild d.containerClass e.toValue) = .ok es) := by
  intro here there
  have container : d.containerClass.isContainer = true := by cases d <;> rfl
  have container' : d'.containerClass.isContainer = true := by cases d' <;> rfl
  have both := outline_corresponding (container'.trans container.symm) (d.ahead_translated d' text)
    fun t ht => Dialect.corresponds_translated (apart t ht).1 (apart t ht).2
  rcases both with ⟨cs, ok, ok'⟩ | ⟨e, e', error, error', errors⟩
  · rw [show here = _ from ok, show there = _ from ok']
    refine ⟨?_, nofun, ?_⟩
    · constructor <;> rintro ⟨e, he⟩ <;> cases he
    · intro es hes
      cases hes
      exact ⟨_, rfl, d.mapM_rebuild_toEntity d' cs, d'.mapM_rebuild_toEntity d cs⟩
  · rw [show here = _ from error, show there = _ from error']
    refine ⟨?_, ?_, nofun⟩
    · exact ⟨fun _ => ⟨e', rfl⟩, fun _ => ⟨e, rfl⟩⟩
    · intro f f' hf hf'
      cases hf
      cases hf'
      cases errors with
      | orphanChild line content content' => exact ⟨line, content, content', rfl, rfl, rfl⟩
      | childless unable =>
        have unable : d.containerClass.isContainer = false := unable
        rw [container] at unable
        cases unable

/-- A form whose input has the tag of the forms for a value. Values, attributes and lines that are
no tag lines stay as they are. -/
theorem outline_translated_form_to_node :
    (∀ t ∈ (Source.ofText "@form A\n\t@input\tform \n@input2 input\nno @form").ahead,
      t.key ≠ "node" ∧ t.key ≠ "property") ∧
    Dialect.translated .form .node "@form A\n\t@input\tform \n@input2 input\nno @form" =
      "@node A\n\t@property\tform \n@input2 input\nno @form" ∧
    (outline (.ofDialect .form) "@form A\n\t@input\tform \n@input2 input\nno @form").result =
      .ok [⟨.form, .text "A", [],
        [⟨.input, .text "form", [(.text "input2", .text "input")], []⟩]⟩] ∧
    (outline (.ofDialect .node)
        "@node A\n\t@property\tform \n@input2 input\nno @form").result =
      .ok [⟨.node, .text "A", [],
        [⟨.property, .text "form", [(.text "input2", .text "input")], []⟩]⟩] := by
  have apart : ∀ t ∈ (Source.ofText "@form A\n\t@input\tform \n@input2 input\nno @form").ahead,
      t.key ≠ "node" ∧ t.key ≠ "property" := by decide
  have translated :
      Dialect.translated .form .node "@form A\n\t@input\tform \n@input2 input\nno @form" =
        "@node A\n\t@property\tform \n@input2 input\nno @form" := by decide
  have outlined :
      (outline (.ofDialect .form) "@form A\n\t@input\tform \n@input2 input\nno @form").result =
        .ok [⟨.form, .text "A", [],
          [⟨.input, .text "form", [(.text "input2", .text "input")], []⟩]⟩] := rfl
  obtain ⟨-, -, ok⟩ := outline_translated .form .node _ apart
  obtain ⟨es, there, rebuilt, -⟩ := ok _ outlined
  have nodes : es = [⟨.node, .text "A", [],
      [⟨.property, .text "form", [(.text "input2", .text "input")], []⟩]⟩] :=
    Except.ok.inj rebuilt.symm
  rw [translated, nodes] at there
  exact ⟨apart, translated, outlined, there⟩

end TagOutline
