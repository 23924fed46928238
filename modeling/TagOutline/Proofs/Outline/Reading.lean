import Mathlib.Data.List.TakeWhile
import TagOutline.Proofs.Outline.Draft
import TagOutline.Proofs.Outline.Step

/-!
# The reading of a list of tags

An outline said without a parser. A container stands for a tag that opens one, and all that belongs
to it is found in the tags behind that tag: its attributes up to the next tag that opens something,
its children up to the next tag that opens a container. `outline_eq_reading` says that the parser
gives this reading wherever it gives a result.

What a parser has finished, what is still open and what the tags ahead will add make up one list of
containers, the prospect. A step that takes a tag changes the three parts and leaves the list as it
is; at the end of the text all of it is finished.
-/

namespace TagOutline

/-- What a tag says, wherever it stands. -/
def Tag.entry (t : Tag) : Write :=
  (t.key, t.value)

namespace OutlineOptions

variable (o : OutlineOptions)

/-- Whether a tag opens a container or a child. -/
def opens (e : Write) : Bool :=
  o.role e.1 = .opensContainer || o.role e.1 = .opensChild

/-- The values of the tags of a role, each with all that stands behind its tag. -/
def openings (role : TagRole) : List Write → List (String × List Write)
  | [] => []
  | e :: es => if o.role e.1 = role then (e.2, es) :: openings role es else openings role es

/-- The attributes before the next tag that opens something. -/
def writesIn (es : List Write) : List Write :=
  (es.takeWhile fun e => !o.opens e).filter fun e => o.role e.1 = .attribute

/-- What stands before the next tag that opens a container. -/
def untilContainer (es : List Write) : List Write :=
  es.takeWhile fun e => o.role e.1 ≠ .opensContainer

/-- The children before the next container. -/
def childrenIn (es : List Write) : List ChildDraft :=
  (o.openings .opensChild (o.untilContainer es)).map fun opening =>
    ⟨opening.1, o.writesIn opening.2⟩

/-- The containers of an outline. -/
def reading (es : List Write) : List ContainerDraft :=
  (o.openings .opensContainer es).map fun opening =>
    ⟨opening.1, o.writesIn opening.2, o.childrenIn opening.2⟩

variable {o} {e : Write}

@[simp] theorem writesIn_nil : o.writesIn [] = [] := rfl

@[simp] theorem childrenIn_nil : o.childrenIn [] = [] := rfl

@[simp] theorem reading_nil : o.reading [] = [] := rfl

/-- A tag that opens something ends the attributes before it. -/
theorem writesIn_cons_of_opens (h : o.opens e = true) (es : List Write) :
    o.writesIn (e :: es) = [] := by
  simp [writesIn, h]

theorem writesIn_cons_of_bare (role : o.role e.1 = .bare) (es : List Write) :
    o.writesIn (e :: es) = o.writesIn es := by
  simp [writesIn, opens, role]

theorem writesIn_cons_of_attribute (role : o.role e.1 = .attribute) (es : List Write) :
    o.writesIn (e :: es) = e :: o.writesIn es := by
  simp [writesIn, opens, role]

/-- The next container ends the attributes also where only what stands before it is looked at. -/
theorem writesIn_untilContainer (es : List Write) :
    o.writesIn (o.untilContainer es) = o.writesIn es := by
  rw [writesIn, untilContainer, List.takeWhile_takeWhile, writesIn]
  congr 2
  funext e
  cases role : o.role e.1 <;> simp [opens, role]

theorem childrenIn_cons_of_container (role : o.role e.1 = .opensContainer) (es : List Write) :
    o.childrenIn (e :: es) = [] := by
  simp [childrenIn, untilContainer, role, openings]

theorem childrenIn_cons_of_child (role : o.role e.1 = .opensChild) (es : List Write) :
    o.childrenIn (e :: es) = ⟨e.2, o.writesIn es⟩ :: o.childrenIn es := by
  have hsection : o.untilContainer (e :: es) = e :: o.untilContainer es := by
    simp [untilContainer, role]
  rw [childrenIn, hsection, openings, if_pos role, List.map_cons, writesIn_untilContainer]
  rfl

theorem childrenIn_cons_of_not_opens (h : o.opens e = false) (es : List Write) :
    o.childrenIn (e :: es) = o.childrenIn es := by
  simp only [opens, Bool.or_eq_false_iff, decide_eq_false_iff_not] at h
  simp [childrenIn, untilContainer, openings, h.1, h.2]

theorem reading_cons_of_container (role : o.role e.1 = .opensContainer) (es : List Write) :
    o.reading (e :: es) = ⟨e.2, o.writesIn es, o.childrenIn es⟩ :: o.reading es := by
  simp [reading, openings, role]

theorem reading_cons_of_ne (role : o.role e.1 ≠ .opensContainer) (es : List Write) :
    o.reading (e :: es) = o.reading es := by
  simp [reading, openings, role]

end OutlineOptions

namespace Focus

/-- The open container with all that the tags behind it add to it. -/
def completed (o : OutlineOptions) (es : List Write) : Focus → Option ContainerDraft
  | .none => Option.none
  | .container c =>
    some ⟨c.name, c.writes ++ o.writesIn es, c.children ++ o.childrenIn es⟩
  | .child c d =>
    some ⟨c.name, c.writes, c.children ++ ⟨d.name, d.writes ++ o.writesIn es⟩ :: o.childrenIn es⟩

variable {o : OutlineOptions} {e : Write}

theorem completed_nil (f : Focus) : f.completed o [] = f.container? := by
  cases f <;> simp [completed, container?, ContainerDraft.addChild]

theorem completed_cons_of_container (role : o.role e.1 = .opensContainer) (es : List Write)
    (f : Focus) : f.completed o (e :: es) = f.container? := by
  have hopens : o.opens e = true := by simp [OutlineOptions.opens, role]
  cases f with
  | none => rfl
  | container c =>
    simp [completed, container?, OutlineOptions.writesIn_cons_of_opens hopens,
      OutlineOptions.childrenIn_cons_of_container role]
  | child c d =>
    simp [completed, container?, OutlineOptions.writesIn_cons_of_opens hopens,
      OutlineOptions.childrenIn_cons_of_container role, ContainerDraft.addChild]

theorem completed_cons_of_child (role : o.role e.1 = .opensChild) (es : List Write) {f : Focus}
    {c : ContainerDraft} (opened : f.container? = some c) :
    f.completed o (e :: es) = (Focus.child c (.new e.2)).completed o es := by
  have hopens : o.opens e = true := by simp [OutlineOptions.opens, role]
  cases f with
  | none => cases opened
  | container d =>
    have hd : d = c := Option.some.inj opened
    simp [completed, hd, OutlineOptions.writesIn_cons_of_opens hopens,
      OutlineOptions.childrenIn_cons_of_child role, ChildDraft.new]
  | child d f =>
    have hd : d.addChild f = c := Option.some.inj opened
    simp [completed, ← hd, OutlineOptions.writesIn_cons_of_opens hopens,
      OutlineOptions.childrenIn_cons_of_child role, ChildDraft.new, ContainerDraft.addChild]

theorem completed_cons_of_bare (role : o.role e.1 = .bare) (es : List Write) (f : Focus) :
    f.completed o (e :: es) = f.completed o es := by
  have hopens : o.opens e = false := by simp [OutlineOptions.opens, role]
  cases f with
  | none => rfl
  | container c =>
    simp [completed, OutlineOptions.writesIn_cons_of_bare role,
      OutlineOptions.childrenIn_cons_of_not_opens hopens]
  | child c d =>
    simp [completed, OutlineOptions.writesIn_cons_of_bare role,
      OutlineOptions.childrenIn_cons_of_not_opens hopens]

theorem completed_cons_of_attribute (role : o.role e.1 = .attribute) (es : List Write) (f : Focus) :
    f.completed o (e :: es) = (f.write e).completed o es := by
  have hopens : o.opens e = false := by simp [OutlineOptions.opens, role]
  cases f with
  | none => rfl
  | container c =>
    simp [completed, write, ContainerDraft.write, OutlineOptions.writesIn_cons_of_attribute role,
      OutlineOptions.childrenIn_cons_of_not_opens hopens]
  | child c d =>
    simp [completed, write, ChildDraft.write, OutlineOptions.writesIn_cons_of_attribute role,
      OutlineOptions.childrenIn_cons_of_not_opens hopens]

end Focus

namespace Parser

/-- The containers that a parser will have finished once it has taken some tags: those that are
finished, the open one and those that the tags open. -/
def prospect (p : Parser) (ts : List Tag) : List ContainerDraft :=
  p.finished ++ (p.focus.completed p.options (ts.map Tag.entry)).toList ++
    p.options.reading (ts.map Tag.entry)

/-- A step that takes a tag keeps the prospect. -/
theorem Takes.prospect_eq {p : Parser} {t : Tag} {s : ParserStep} (h : Takes p t s)
    (taken : s.error = none) (ts : List Tag) : s.parser.prospect ts = p.prospect (t :: ts) := by
  rw [prospect, prospect, h.options_eq, List.map_cons]
  cases h with
  | container role =>
    have role' : p.options.role t.entry.1 = .opensContainer := role
    rw [Focus.completed_cons_of_container role', OutlineOptions.reading_cons_of_container role']
    simp [Focus.completed, ContainerDraft.new, Tag.entry]
  | child role opened able =>
    have role' : p.options.role t.entry.1 = .opensChild := role
    rw [Focus.completed_cons_of_child role' _ opened,
      OutlineOptions.reading_cons_of_ne (by simp [role'])]
    rfl
  | orphan role closed => cases taken
  | childless role opened unable => cases taken
  | bare role =>
    have role' : p.options.role t.entry.1 = .bare := role
    rw [Focus.completed_cons_of_bare role', OutlineOptions.reading_cons_of_ne (by simp [role'])]
    rfl
  | stray role closed =>
    have role' : p.options.role t.entry.1 = .attribute := role
    rw [closed, OutlineOptions.reading_cons_of_ne (by simp [role'])]
    simp [closed, Focus.completed]
  | written role opened =>
    have role' : p.options.role t.entry.1 = .attribute := role
    rw [Focus.completed_cons_of_attribute role', OutlineOptions.reading_cons_of_ne (by simp [role'])]
    rfl

/-- A run without an error finishes the prospect. -/
theorem Runs.finished_eq {p : Parser} {ts : List Tag} {r : ParserStep} (h : Runs p ts r)
    (ok : r.error = none) : r.parser.finished = p.prospect ts := by
  induction h with
  | finish p => simp [Parser.finish, close, prospect, Focus.completed_nil]
  | stop ts first failed =>
    rw [ok] at failed
    cases failed
  | @go p t s r ts first taken others ih =>
    have hrest : r.parser.finished = s.parser.prospect ts := ih ok
    exact hrest.trans (first.prospect_eq taken ts)

/-- A parser that has taken nothing has the whole reading before it. -/
theorem prospect_ofText (o : OutlineOptions) (text : String) (ts : List Tag) :
    (ofText o text).prospect ts = o.reading (ts.map Tag.entry) := by
  simp [prospect, ofText, Focus.completed]

/-- A run over a whole text that has no error finishes the reading of its tags. -/
theorem finished_run {o : OutlineOptions} {text : String} (ok : (ofText o text).run.error = none) :
    (ofText o text).run.parser.finished =
      o.reading ((Source.ofText text).ahead.map Tag.entry) := by
  have hrun := runs_takeAll (ofText o text) (Source.ofText text).ahead
  exact (hrun.finished_eq ok).trans (prospect_ofText o text _)

end Parser

/-- The entities of an outline are those of the drafts that its tags are read as. -/
theorem entities_of_outline {o : OutlineOptions} {text : String} {es : List Entity}
    (h : (outline o text).result = .ok es) :
    es = (o.reading ((Source.ofText text).ahead.map Tag.entry)).map (ContainerDraft.toEntity o) := by
  obtain ⟨ok, rfl⟩ := ParserStep.entities_eq_ok_iff.mp h
  have options : (Parser.ofText o text).run.parser.options = o :=
    (Parser.runs_takeAll (Parser.ofText o text) _).options_eq
  rw [Parser.entities, Parser.finished_run ok, options]

/-- An outline is the reading of its text: one container for each tag that opens one, in order and
with the value of the tag for its name; its attributes are those written to it before the next tag
that opens something, its children those opened before the next container, each with the attributes
up to the next tag that opens something. The attributes of an entity are written to a new entity one
after another, so each key is there once, where it was written first, with the value that was
written last. -/
theorem outline_eq_reading (o : OutlineOptions) (text : String) :
    (∀ cs, (draft o text).result = .ok cs →
      cs = o.reading ((Source.ofText text).ahead.map Tag.entry)) ∧
    (∀ es, (outline o text).result = .ok es →
      es = (o.reading ((Source.ofText text).ahead.map Tag.entry)).map fun c =>
        { (Entity.new o.containerClass (.text c.name)).addAttributes c.writes with
          children := c.children.map fun d =>
            (Entity.new o.childClass (.text d.name)).addAttributes d.writes }) ∧
    ∀ (cls : EntityClass) (name : Value) (ws : List Write),
      ((Entity.new cls name).addAttributes ws).attributes.map Prod.fst =
          (ws.map Prod.fst).eraseDups.map Key.text ∧
        ∀ key, ((Entity.new cls name).addAttributes ws).attributes.named? key =
          (ws.reverse.lookup key).map Value.text := by
  refine ⟨?_, ?_, ?_⟩
  · intro cs hcs
    obtain ⟨ok, rfl⟩ := ParserStep.drafts_eq_ok_iff.mp hcs
    exact Parser.finished_run ok
  · intro es hes
    obtain ⟨ok, rfl⟩ := ParserStep.entities_eq_ok_iff.mp hes
    have options : (Parser.ofText o text).run.parser.options = o :=
      (Parser.runs_takeAll (Parser.ofText o text) _).options_eq
    rw [Parser.entities, Parser.finished_run ok, options]
    exact List.map_congr_left fun c _ => c.toEntity_eq o
  · intro cls name ws
    rw [Entity.addAttributes_new]
    exact ⟨keys_attributesOf ws, named?_attributesOf ws⟩

/-- Two forms: an attribute before both, another one written twice, a sigil alone, and an input that
has the tag of the forms for a value. -/
theorem outline_eq_reading_two_forms :
    (draft (.ofDialect .form)
        "@k lost\n@form A\n@k 1\n@k 2\n@\n@input a\n@t form\n@form B").result =
      .ok [⟨"A", [("k", "1"), ("k", "2")], [⟨"a", [("t", "form")]⟩]⟩, ⟨"B", [], []⟩] ∧
    [⟨"A", [("k", "1"), ("k", "2")], [⟨"a", [("t", "form")]⟩]⟩, ⟨"B", [], []⟩] =
      (OutlineOptions.ofDialect .form).reading
        ((Source.ofText
          "@k lost\n@form A\n@k 1\n@k 2\n@\n@input a\n@t form\n@form B").ahead.map Tag.entry) ∧
    (outline (.ofDialect .form)
        "@k lost\n@form A\n@k 1\n@k 2\n@\n@input a\n@t form\n@form B").result =
      .ok [⟨.form, .text "A", [(.text "k", .text "2")],
          [⟨.input, .text "a", [(.text "t", .text "form")], []⟩]⟩,
        ⟨.form, .text "B", [], []⟩] ∧
    ([⟨.form, .text "A", [(.text "k", .text "2")],
          [⟨.input, .text "a", [(.text "t", .text "form")], []⟩]⟩,
        ⟨.form, .text "B", [], []⟩] : List Entity) =
      ((OutlineOptions.ofDialect .form).reading
        ((Source.ofText
          "@k lost\n@form A\n@k 1\n@k 2\n@\n@input a\n@t form\n@form B").ahead.map
            Tag.entry)).map fun c =>
        { (Entity.new .form (.text c.name)).addAttributes c.writes with
          children := c.children.map fun d =>
            (Entity.new .input (.text d.name)).addAttributes d.writes } := by
  have drafted : (draft (.ofDialect .form)
      "@k lost\n@form A\n@k 1\n@k 2\n@\n@input a\n@t form\n@form B").result =
      .ok [⟨"A", [("k", "1"), ("k", "2")], [⟨"a", [("t", "form")]⟩]⟩, ⟨"B", [], []⟩] := rfl
  have outlined : (outline (.ofDialect .form)
      "@k lost\n@form A\n@k 1\n@k 2\n@\n@input a\n@t form\n@form B").result =
      .ok [⟨.form, .text "A", [(.text "k", .text "2")],
          [⟨.input, .text "a", [(.text "t", .text "form")], []⟩]⟩,
        ⟨.form, .text "B", [], []⟩] := rfl
  have h := outline_eq_reading (.ofDialect .form)
    "@k lost\n@form A\n@k 1\n@k 2\n@\n@input a\n@t form\n@form B"
  exact ⟨drafted, h.1 _ drafted, outlined, h.2.1 _ outlined⟩

end TagOutline
