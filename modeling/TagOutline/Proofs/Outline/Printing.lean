import TagOutline.Proofs.Entity.Record
import TagOutline.Proofs.Outline.Entries
import TagOutline.Proofs.Outline.Orphan

/-!
# Printed outlines

Entities written as tag lines, each entry of their drafts on a line of its own. The entities of an
outline are plain: their names and attributes fit on tag lines, and none of the attributes has the
key of a tag that opens something. Plain entities are the outline of what they are printed as, so
printing and reading once more changes nothing.
-/

namespace TagOutline

namespace Entity

/-- The attributes of an entity as they are written. -/
def writes (e : Entity) : List Write :=
  e.attributes.map fun a => (Value.plainKey a.1, a.2.plain)

/-- An entity as a child that tags write. -/
def toChildDraft (e : Entity) : ChildDraft :=
  ⟨e.name.plain, e.writes⟩

/-- An entity as a container that tags write. -/
def toDraft (e : Entity) : ContainerDraft :=
  ⟨e.name.plain, e.writes, e.children.map toChildDraft⟩

/-- The name and the attributes of an entity are texts that fit on tag lines, none of them is read
as anything else than an attribute, and no key is there twice. -/
structure IsPlain (o : OutlineOptions) (e : Entity) : Prop where
  name : ∃ n, e.name = .text n ∧ Tag.IsValue n
  attributes : ∀ a ∈ e.attributes, ∃ w : Write, a = (.text w.1, .text w.2) ∧ o.IsAttribute w
  distinct : (e.attributes.map Prod.fst).Nodup

/-- A plain container with plain children, of the classes that the options give them. Children have
no children of their own, and a container has some only if its class takes them. -/
structure IsOutlined (o : OutlineOptions) (e : Entity) : Prop extends e.IsPlain o where
  cls : e.cls = o.containerClass
  able : e.children ≠ [] → e.cls.isContainer = true
  children : ∀ d ∈ e.children, d.cls = o.childClass ∧ d.children = [] ∧ d.IsPlain o

end Entity

/-- The text with one line for each entry. -/
def printedEntries (ws : List Write) : String :=
  "\n".intercalate (ws.map fun w => Tag.lineOf w.1 w.2)

/-- The text of some containers: the line that opens each of them, the lines of its attributes, and
for each of its children the same. -/
def printed (o : OutlineOptions) (es : List Entity) : String :=
  printedEntries (es.flatMap fun e => e.toDraft.entries o)

variable {o : OutlineOptions}

/-! Drafts that are plain become plain entities. -/

theorem isPlain_attributesOf {name : String} {ws : List Write} (hname : Tag.IsValue name)
    (hws : ∀ w ∈ ws, o.IsAttribute w) (cls : EntityClass) (children : List Entity) :
    Entity.IsPlain o ⟨cls, .text name, attributesOf ws, children⟩ := by
  refine ⟨⟨name, rfl, hname⟩, ?_, ?_⟩
  · intro a ha
    have hparts : ∀ w ∈ ws, o.IsAttributeKey w.1 ∧ Tag.IsValue w.2 :=
      fun w hw => ⟨(hws w hw).key, (hws w hw).value⟩
    obtain ⟨⟨k, hk, hkey⟩, v, hv, hvalue⟩ := exists_text_of_mem_attributesOf hparts ha
    exact ⟨(k, v), Prod.ext hk hv, hkey, hvalue⟩
  · have hdiffer : (attributesOf ws).Pairwise fun a b => a.1 ≠ b.1 := by
      apply (Fields.pairwise_ofList _).imp
      intro a b hsame heq
      rw [heq, Key.same_refl] at hsame
      cases hsame
    exact List.pairwise_map.mpr hdiffer

theorem isOutlined_toEntity {c : ContainerDraft} (plain : c.IsPlain o)
    (able : c.children ≠ [] → o.containerClass.isContainer = true) :
    (c.toEntity o).IsOutlined o := by
  refine ⟨isPlain_attributesOf plain.name plain.writes _ _, rfl, ?_, ?_⟩
  · intro hne
    apply able
    intro hnil
    apply hne
    simp [ContainerDraft.toEntity, hnil]
  · intro d hd
    obtain ⟨b, hb, rfl⟩ := List.mem_map.mp hd
    have hplain := plain.children b hb
    exact ⟨rfl, rfl, isPlain_attributesOf hplain.name hplain.writes _ _⟩

/-! Entities that are plain come from plain drafts. -/

theorem Entity.IsPlain.attributes_eq {e : Entity} (h : e.IsPlain o) :
    e.writes.map (fun w => (Key.text w.1, Value.text w.2)) = e.attributes := by
  rw [writes, List.map_map]
  conv_rhs => rw [← List.map_id e.attributes]
  apply List.map_congr_left
  intro a ha
  obtain ⟨w, rfl, -⟩ := h.attributes a ha
  rfl

theorem Entity.IsPlain.attributesOf_writes {e : Entity} (h : e.IsPlain o) :
    attributesOf e.writes = e.attributes := by
  have hkeys : e.attributes.map Prod.fst = (e.writes.map Prod.fst).map Key.text := by
    conv_lhs => rw [← h.attributes_eq]
    simp
  have hdistinct : ((e.writes.map Prod.fst).map Key.text).Nodup := hkeys ▸ h.distinct
  have distinct : (e.writes.map Prod.fst).Nodup := by
    apply (List.pairwise_map.mp hdistinct).imp
    intro k l hne heq
    exact hne (congrArg Key.text heq)
  rw [attributesOf_of_nodup distinct, h.attributes_eq]

theorem Entity.IsPlain.isAttribute_writes {e : Entity} (h : e.IsPlain o) :
    ∀ w ∈ e.writes, o.IsAttribute w := by
  intro w hw
  obtain ⟨a, ha, rfl⟩ := List.mem_map.mp hw
  obtain ⟨v, rfl, hv⟩ := h.attributes a ha
  exact hv

theorem Entity.IsPlain.isValue_name {e : Entity} (h : e.IsPlain o) : Tag.IsValue e.name.plain := by
  obtain ⟨n, hn, hvalue⟩ := h.name
  rw [hn]
  exact hvalue

theorem Entity.IsPlain.text_name {e : Entity} (h : e.IsPlain o) :
    Value.text e.name.plain = e.name := by
  obtain ⟨n, hn, -⟩ := h.name
  rw [hn]
  rfl

/-- A plain entity without children is that of its draft. -/
theorem Entity.IsPlain.toEntity_toChildDraft {e : Entity} (h : e.IsPlain o)
    (childless : e.children = []) : e.toChildDraft.toEntity e.cls = e := by
  show (⟨e.cls, .text e.name.plain, attributesOf e.writes, []⟩ : Entity) = e
  rw [h.text_name, h.attributesOf_writes, ← childless]
  exact e.mk_eq

namespace Entity.IsOutlined

variable {e : Entity}

theorem isPlain_toDraft (h : e.IsOutlined o) : e.toDraft.IsPlain o := by
  refine ⟨h.isValue_name, h.isAttribute_writes, ?_⟩
  intro d hd
  obtain ⟨b, hb, rfl⟩ := List.mem_map.mp hd
  obtain ⟨-, -, hplain⟩ := h.children b hb
  exact ⟨hplain.isValue_name, hplain.isAttribute_writes⟩

/-- An entity of an outline is that of its draft. -/
theorem toEntity_toDraft (h : e.IsOutlined o) : e.toDraft.toEntity o = e := by
  have hchildren : e.children.map (fun d => d.toChildDraft.toEntity o.childClass) = e.children := by
    conv_rhs => rw [← List.map_id e.children]
    apply List.map_congr_left
    intro d hd
    obtain ⟨hcls, hnone, hplain⟩ := h.children d hd
    rw [← hcls]
    exact hplain.toEntity_toChildDraft hnone
  show (⟨o.containerClass, .text e.name.plain, attributesOf e.writes,
    (e.children.map toChildDraft).map (ChildDraft.toEntity o.childClass)⟩ : Entity) = e
  rw [h.text_name, h.attributesOf_writes, ← h.cls, List.map_map]
  exact (congrArg (Entity.mk e.cls e.name e.attributes) hchildren).trans e.mk_eq

end Entity.IsOutlined

/-! Printed entries are read back, and the entries of an outline hold no child out of place. -/

theorem lines_printedEntries {ws : List Write} (fits : ∀ w ∈ ws, Tag.IsKey w.1 ∧ Tag.IsValue w.2) :
    Text.lines (printedEntries ws) = ws.map fun w => Tag.lineOf w.1 w.2 := by
  apply Text.lines_intercalate
  · intro l hl
    obtain ⟨w, hw, rfl⟩ := List.mem_map.mp hl
    exact Tag.newline_notMem_lineOf (fits w hw).1 (fits w hw).2
  · intro l hl
    obtain ⟨w, -, rfl⟩ := List.mem_map.mp hl
    exact Tag.lineOf_ne_empty w.1 w.2

theorem entries_tagsAfter {ws : List Write} (fits : ∀ w ∈ ws, Tag.IsKey w.1 ∧ Tag.IsValue w.2)
    (before : Nat) :
    (Source.tagsAfter before (ws.map fun w => Tag.lineOf w.1 w.2)).map Tag.entry = ws := by
  induction ws generalizing before with
  | nil => rfl
  | cons w ws ih =>
    have hread := Tag.ofLine?_lineOf (fits w (by simp)).1 (fits w (by simp)).2 (before + 1)
    have others := ih (fun v hv => fits v (by simp [hv])) (before + 1)
    rw [List.map_cons, Source.tagsAfter, hread, List.map_append, others]
    rfl

/-- Entries that fit on lines are those of the tags of their text. -/
theorem entries_ahead_printedEntries {ws : List Write}
    (fits : ∀ w ∈ ws, Tag.IsKey w.1 ∧ Tag.IsValue w.2) :
    (Source.ofText (printedEntries ws)).ahead.map Tag.entry = ws := by
  rw [Source.ahead_ofText, lines_printedEntries fits]
  exact entries_tagsAfter fits 0

/-- The entries of plain containers fit on lines. -/
theorem fits_of_mem_entries {cs : List ContainerDraft} (hcontainer : Tag.IsKey o.containerTag)
    (hchild : Tag.IsKey o.childTag) (plain : ∀ c ∈ cs, c.IsPlain o) :
    ∀ w ∈ cs.flatMap (ContainerDraft.entries o), Tag.IsKey w.1 ∧ Tag.IsValue w.2 := by
  intro w hw
  obtain ⟨c, hc, hmem⟩ := List.mem_flatMap.mp hw
  obtain ⟨name, writes, children⟩ := plain c hc
  rw [ContainerDraft.entries, List.mem_cons, List.mem_append] at hmem
  rcases hmem with rfl | hmem | hmem
  · exact ⟨hcontainer, name⟩
  · exact ⟨(writes w hmem).key.solid, (writes w hmem).value⟩
  · obtain ⟨d, hd, hmem⟩ := List.mem_flatMap.mp hmem
    rcases List.mem_cons.mp hmem with rfl | hmem
    · exact ⟨hchild, (children d hd).name⟩
    · have hw := (children d hd).writes w hmem
      exact ⟨hw.key.solid, hw.value⟩

/-- A text whose entries are those of some plain containers has no error, if the class of the
containers takes children where there are any. -/
theorem Parser.error_run_of_entries {cs : List ContainerDraft} {text : String}
    (hentries : (Source.ofText text).ahead.map Tag.entry = cs.flatMap (ContainerDraft.entries o))
    (plain : ∀ c ∈ cs, c.IsPlain o)
    (able : ∀ c ∈ cs, c.children ≠ [] → o.containerClass.isContainer = true) :
    (ofText o text).run.error = none := by
  have hrun := runs_takeAll (ofText o text) (Source.ofText text).ahead
  cases hts : (Source.ofText text).ahead with
  | nil =>
    rw [run, ofText, hts]
    rfl
  | cons t ts =>
    rw [run, ofText, hts]
    rw [hts] at hentries hrun
    apply hrun.error_eq_none_of_container
    · cases cs with
      | nil => cases hentries
      | cons c cs =>
        have hfirst : t.entry = (o.containerTag, c.name) := (List.cons.inj hentries).1
        have hkey : t.key = o.containerTag := congrArg Prod.fst hfirst
        show o.role t.key = .opensContainer
        rw [hkey]
        exact OutlineOptions.role_containerTag
    · intro u hu role
      have hmem : u.entry ∈ cs.flatMap (ContainerDraft.entries o) := by
        rw [← hentries]
        exact List.mem_map_of_mem (List.mem_cons_of_mem t hu)
      obtain ⟨c, hc, hparent⟩ := OutlineOptions.exists_parent_of_mem_entries plain hmem role
      exact able c hc hparent

/-- The entities of an outline are plain. -/
theorem isOutlined_of_outline {text : String} {es : List Entity}
    (h : (outline o text).result = .ok es) : ∀ e ∈ es, e.IsOutlined o := by
  obtain ⟨ok, -⟩ := ParserStep.entities_eq_ok_iff.mp h
  have hrun := Parser.runs_takeAll (Parser.ofText o text) (Source.ofText text).ahead
  have fits : ∀ w ∈ (Source.ofText text).ahead.map Tag.entry, Tag.IsKey w.1 ∧ Tag.IsValue w.2 := by
    intro w hw
    obtain ⟨t, ht, rfl⟩ := List.mem_map.mp hw
    exact ⟨Source.isKey_of_mem_ahead ht, Source.isValue_of_mem_ahead ht⟩
  intro e he
  rw [entities_of_outline h] at he
  obtain ⟨c, hc, rfl⟩ := List.mem_map.mp he
  apply isOutlined_toEntity (OutlineOptions.isPlain_of_mem_reading fits hc)
  intro hparent
  obtain ⟨w, hw, role⟩ := OutlineOptions.exists_opensChild_of_mem_reading hc hparent
  obtain ⟨t, ht, rfl⟩ := List.mem_map.mp hw
  exact hrun.able ok ht role

/-- Entities of an outline are read back from their text. -/
theorem outline_printed_of_isOutlined (hcontainer : Tag.IsKey o.containerTag) (hchild : Tag.IsKey o.childTag)
    (apart : o.containerTag ≠ o.childTag) {es : List Entity} (h : ∀ e ∈ es, e.IsOutlined o) :
    (outline o (printed o es)).result = .ok es := by
  let cs := es.map Entity.toDraft
  have plain : ∀ c ∈ cs, c.IsPlain o := by
    intro c hc
    obtain ⟨e, he, rfl⟩ := List.mem_map.mp hc
    exact (h e he).isPlain_toDraft
  have able : ∀ c ∈ cs, c.children ≠ [] → o.containerClass.isContainer = true := by
    intro c hc hparent
    obtain ⟨e, he, rfl⟩ := List.mem_map.mp hc
    rw [← (h e he).cls]
    apply (h e he).able
    intro hnil
    simp [Entity.toDraft, hnil] at hparent
  have hentries : (Source.ofText (printed o es)).ahead.map Tag.entry =
      cs.flatMap (ContainerDraft.entries o) := by
    have hcs : cs.flatMap (ContainerDraft.entries o) = es.flatMap fun e => e.toDraft.entries o :=
      List.flatMap_map ..
    rw [printed, ← hcs]
    exact entries_ahead_printedEntries (fits_of_mem_entries hcontainer hchild plain)
  have ok := Parser.error_run_of_entries hentries plain able
  have options : (Parser.ofText o (printed o es)).run.parser.options = o :=
    (Parser.runs_takeAll (Parser.ofText o (printed o es)) _).options_eq
  refine ParserStep.entities_eq_ok_iff.mpr ⟨ok, ?_⟩
  rw [Parser.entities, Parser.finished_run ok, options, hentries,
    OutlineOptions.reading_entries apart plain, List.map_map]
  conv_rhs => rw [← List.map_id es]
  exact List.map_congr_left fun e he => (h e he).toEntity_toDraft

/-- The entities of an outline are plain, and plain entities are the outline of the text that they
are printed as, as long as the tags that open containers and children are two different keys. So an
outline is that of its own print. -/
theorem outline_printing (o : OutlineOptions) :
    (∀ text es, (outline o text).result = .ok es → ∀ e ∈ es, e.IsOutlined o) ∧
    (Tag.IsKey o.containerTag → Tag.IsKey o.childTag → o.containerTag ≠ o.childTag →
      (∀ es : List Entity, (∀ e ∈ es, e.IsOutlined o) →
        (outline o (printed o es)).result = .ok es) ∧
      ∀ text es, (outline o text).result = .ok es → (outline o (printed o es)).result = .ok es) := by
  refine ⟨fun text es h => isOutlined_of_outline h, ?_⟩
  intro hcontainer hchild apart
  refine ⟨fun es h => outline_printed_of_isOutlined hcontainer hchild apart h, ?_⟩
  intro text es h
  exact outline_printed_of_isOutlined hcontainer hchild apart (isOutlined_of_outline h)

/-- A form without a name and an input. The sigil is a part of a key, tabs are blanks between key
and value and stay inside a value, and the line feed ends each line. -/
theorem outline_printing_nameless_form :
    (outline (.ofDialect .form) "@form\n@@k\tx\n @@k y\tz \n@input a b\n@t").result =
      .ok [⟨.form, .text "", [(.text "@k", .text "y\tz")],
        [⟨.input, .text "a b", [(.text "t", .text "")], []⟩]⟩] ∧
    (outline (.ofDialect .form) (printed (.ofDialect .form)
        [⟨.form, .text "", [(.text "@k", .text "y\tz")],
          [⟨.input, .text "a b", [(.text "t", .text "")], []⟩]⟩])).result =
      .ok [⟨.form, .text "", [(.text "@k", .text "y\tz")],
        [⟨.input, .text "a b", [(.text "t", .text "")], []⟩]⟩] := by
  have outlined :
      (outline (.ofDialect .form) "@form\n@@k\tx\n @@k y\tz \n@input a b\n@t").result =
        .ok [⟨.form, .text "", [(.text "@k", .text "y\tz")],
          [⟨.input, .text "a b", [(.text "t", .text "")], []⟩]⟩] := rfl
  have h := outline_printing (.ofDialect .form)
  have printing := h.2 (by decide) (by decide) (by decide)
  exact ⟨outlined, printing.1 _ (h.1 _ _ outlined)⟩

end TagOutline
