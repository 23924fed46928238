import TagOutline.Outline.Parser

/-!
# Steps and runs of the parser

What one tag can do to a parser, as a relation with a case for each of the things that can happen,
and what a list of tags can do, as the chain of these steps. `takes_step` and `runs_takeAll` say
that the parser does just that, so what holds of all steps and runs is proved by cases and by
induction on the two relations.
-/

namespace TagOutline

/-- No container is open if and only if the focus is on nothing. -/
theorem Focus.container?_eq_none_iff {f : Focus} : f.container? = Option.none ↔ f = .none := by
  cases f <;> simp [Focus.container?]

namespace Parser

/-- The parser once the source has been read to a tag. -/
def readTo (p : Parser) (t : Tag) : Parser :=
  { p with source := p.source.readTo t }

@[simp] theorem readTo_options (p : Parser) (t : Tag) : (p.readTo t).options = p.options := rfl

@[simp] theorem readTo_finished (p : Parser) (t : Tag) : (p.readTo t).finished = p.finished := rfl

@[simp] theorem readTo_focus (p : Parser) (t : Tag) : (p.readTo t).focus = p.focus := rfl

/-- What taking a tag leads to. -/
inductive Takes (p : Parser) (t : Tag) : ParserStep → Prop where
  /-- A container is opened, and the one that was open is finished. -/
  | container (role : p.options.role t.key = .opensContainer) :
      Takes p t ⟨{ p.readTo t with
        finished := p.finished ++ p.focus.container?.toList
        focus := .container (.new t.value) }, [.containerOpened t.line t.value], none⟩
  /-- A child is opened in the open container. -/
  | child {c : ContainerDraft} (role : p.options.role t.key = .opensChild)
      (opened : p.focus.container? = some c)
      (able : p.options.containerClass.isContainer = true) :
      Takes p t ⟨{ p.readTo t with focus := .child c (.new t.value) }, [], none⟩
  /-- A child has no container to be opened in. -/
  | orphan (role : p.options.role t.key = .opensChild) (closed : p.focus = .none) :
      Takes p t ⟨p.readTo t, [],
        some (.orphanChild t.line (Text.trimmed (p.source.line t.line)))⟩
  /-- The class of the open container takes no children. -/
  | childless (role : p.options.role t.key = .opensChild) (opened : p.focus ≠ .none)
      (unable : p.options.containerClass.isContainer = false) :
      Takes p t ⟨p.readTo t, [], some (.childless ⟨p.options.containerClass, "add_child"⟩)⟩
  /-- A sigil alone is passed over. -/
  | bare (role : p.options.role t.key = .bare) :
      Takes p t ⟨p.readTo t, [.bareSigil t.line], none⟩
  /-- An attribute that belongs to nothing is passed over. -/
  | stray (role : p.options.role t.key = .attribute) (closed : p.focus = .none) :
      Takes p t ⟨p.readTo t, [.strayAttribute t.line t.key], none⟩
  /-- An attribute is written to what was opened last. -/
  | written (role : p.options.role t.key = .attribute) (opened : p.focus ≠ .none) :
      Takes p t ⟨{ p.readTo t with focus := p.focus.write (t.key, t.value) }, [], none⟩

/-- Where a container is open, its class decides whether a child is opened in it. -/
theorem openChild_of_opened {p : Parser} {c : ContainerDraft} (opened : p.focus.container? = some c)
    (t : Tag) :
    p.openChild t =
      if p.options.containerClass.isContainer = true then
        ⟨{ p with focus := .child c (.new t.value) }, [], none⟩
      else ⟨p, [], some (.childless ⟨p.options.containerClass, "add_child"⟩)⟩ := by
  cases hf : p.focus with
  | none =>
    rw [hf] at opened
    cases opened
  | container d =>
    rw [hf] at opened
    simp [openChild, hf, Focus.openChild, opened]
  | child d e =>
    rw [hf] at opened
    simp [openChild, hf, Focus.openChild, opened]

theorem takes_openChild {p : Parser} {t : Tag} (role : p.options.role t.key = .opensChild) :
    Takes p t ((p.readTo t).openChild t) := by
  cases hc : p.focus.container? with
  | none =>
    have closed : p.focus = .none := Focus.container?_eq_none_iff.mp hc
    have h := Takes.orphan role closed
    simpa [openChild, closed, Source.readTo, Source.line, readTo] using h
  | some c =>
    have opened : (p.readTo t).focus.container? = some c := hc
    rw [openChild_of_opened opened, readTo_options]
    by_cases able : p.options.containerClass.isContainer = true
    · rw [if_pos able]
      exact Takes.child role hc able
    · rw [if_neg able]
      have hfocus : p.focus ≠ .none := by
        intro closed
        rw [Focus.container?_eq_none_iff.mpr closed] at hc
        cases hc
      exact Takes.childless role hfocus (by simpa using able)

theorem takes_writeAttribute {p : Parser} {t : Tag} (role : p.options.role t.key = .attribute) :
    Takes p t ((p.readTo t).writeAttribute t) := by
  by_cases closed : p.focus = .none
  · have h := Takes.stray role closed
    simpa [writeAttribute, closed, readTo] using h
  · have h := Takes.written role closed
    cases hf : p.focus with
    | none => exact absurd hf closed
    | container c => simpa [writeAttribute, hf, readTo] using h
    | child c d => simpa [writeAttribute, hf, readTo] using h

/-- The step of a parser is one of those that its tag can lead to. -/
theorem takes_step (p : Parser) (t : Tag) : Takes p t (p.step t) := by
  cases role : p.options.role t.key with
  | opensContainer =>
    have h := Takes.container role
    simpa [step, role, openContainer, close, readTo] using h
  | opensChild =>
    have h := takes_openChild role
    simpa [step, role, readTo] using h
  | bare =>
    have h := Takes.bare role
    simpa [step, role, readTo] using h
  | «attribute» =>
    have h := takes_writeAttribute role
    simpa [step, role, readTo] using h

/-- What taking some tags one after another leads to. -/
inductive Runs : Parser → List Tag → ParserStep → Prop where
  /-- No tag is left, and the text ends. -/
  | finish (p : Parser) : Runs p [] ⟨p.finish, [], none⟩
  /-- A tag cannot be taken, and those behind it are left. -/
  | stop {p : Parser} {t : Tag} {s : ParserStep} {e : OutlineError} (ts : List Tag)
      (first : Takes p t s) (failed : s.error = some e) : Runs p (t :: ts) s
  /-- A tag is taken, and then the others. -/
  | go {p : Parser} {t : Tag} {s r : ParserStep} {ts : List Tag} (first : Takes p t s)
      (taken : s.error = none) (others : Runs s.parser ts r) :
      Runs p (t :: ts) ⟨r.parser, s.notices ++ r.notices, r.error⟩

/-- The run of a parser is the one that its tags lead to. -/
theorem runs_takeAll (p : Parser) (ts : List Tag) : Runs p ts (p.takeAll ts) := by
  induction ts generalizing p with
  | nil => exact Runs.finish p
  | cons t ts ih =>
    have first := takes_step p t
    rw [takeAll]
    cases hs : (p.step t).error with
    | none => exact Runs.go first hs (ih (p.step t).parser)
    | some e =>
      have whole : (⟨(p.step t).parser, (p.step t).notices, some e⟩ : ParserStep) = p.step t := by
        rw [← hs]
      show Runs p (t :: ts) ⟨(p.step t).parser, (p.step t).notices, some e⟩
      rw [whole]
      exact Runs.stop ts first hs

theorem Takes.options_eq {p : Parser} {t : Tag} {s : ParserStep} (h : Takes p t s) :
    s.parser.options = p.options := by
  cases h <;> rfl

theorem Runs.options_eq {p : Parser} {ts : List Tag} {r : ParserStep} (h : Runs p ts r) :
    r.parser.options = p.options := by
  induction h with
  | finish p => rfl
  | stop ts first failed => exact first.options_eq
  | go first taken others ih => exact ih.trans first.options_eq

/-- A step tells nothing but warnings and details. -/
theorem Takes.level_of_mem {p : Parser} {t : Tag} {s : ParserStep} (h : Takes p t s) {n : Notice}
    (hn : n ∈ s.notices) : n.level = .warning ∨ n.level = .debug := by
  cases h with
  | container role =>
    obtain rfl := List.mem_singleton.mp hn
    exact Or.inr rfl
  | bare role =>
    obtain rfl := List.mem_singleton.mp hn
    exact Or.inl rfl
  | stray role closed =>
    obtain rfl := List.mem_singleton.mp hn
    exact Or.inl rfl
  | child role opened able => cases hn
  | orphan role closed => cases hn
  | childless role opened unable => cases hn
  | written role opened => cases hn

theorem Runs.level_of_mem {p : Parser} {ts : List Tag} {r : ParserStep} (h : Runs p ts r)
    {n : Notice} (hn : n ∈ r.notices) : n.level = .warning ∨ n.level = .debug := by
  induction h with
  | finish p => cases hn
  | stop ts first failed => exact first.level_of_mem hn
  | go first taken others ih =>
    rcases List.mem_append.mp hn with hn | hn
    · exact first.level_of_mem hn
    · exact ih hn

end Parser

namespace ParserStep

theorem drafts_eq_ok_iff {s : ParserStep} {cs : List ContainerDraft} :
    s.drafts.result = .ok cs ↔ s.error = none ∧ s.parser.finished = cs := by
  unfold drafts
  cases s.error with
  | none => simp
  | some e => simp

theorem entities_eq_ok_iff {s : ParserStep} {es : List Entity} :
    s.entities.result = .ok es ↔ s.error = none ∧ s.parser.entities = es := by
  unfold entities
  cases s.error with
  | none => simp
  | some e => simp

theorem drafts_eq_error_iff {s : ParserStep} {e : OutlineError} :
    s.drafts.result = .error e ↔ s.error = some e := by
  unfold drafts
  cases s.error with
  | none => simp
  | some f => simp

theorem entities_eq_error_iff {s : ParserStep} {e : OutlineError} :
    s.entities.result = .error e ↔ s.error = some e := by
  unfold entities
  cases s.error with
  | none => simp
  | some f => simp

/-- The entities of a run are made of its drafts. -/
theorem entities_result (s : ParserStep) :
    s.entities.result = s.drafts.result.map (List.map (ContainerDraft.toEntity s.parser.options)) := by
  unfold entities drafts
  cases s.error with
  | none => rfl
  | some e => rfl

end ParserStep

end TagOutline
