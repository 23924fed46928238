import TagOutline.Proofs.Outline.Step

/-!
# Corresponding runs

Two parsers, each with its own options, that take tags of the same roles and values. They build the
same drafts, step by step, and one of them stops exactly where the other does. The keys of the tags
that open something play no other part than their roles, and neither do the numbers of the lines:
they are only told in the errors.
-/

namespace TagOutline

/-- Two tags that mean the same, the one under the options `o` and the other under `o'`, where
`move` says where the lines of the one stand in the text of the other. -/
structure Tag.Corresponds (o o' : OutlineOptions) (move : Int → Int) (t t' : Tag) : Prop where
  role : o'.role t'.key = o.role t.key
  /-- An attribute is written under its key, so there the key matters. -/
  key : o.role t.key = .attribute → t'.key = t.key
  value : t'.value = t.value
  line : t'.line = move t.line

/-- Two errors that report the same, each from its own text. -/
inductive OutlineError.Corresponds (o o' : OutlineOptions) (move : Int → Int) :
    OutlineError → OutlineError → Prop where
  | orphanChild (line : Int) (content content' : String) :
      Corresponds o o' move (.orphanChild line content) (.orphanChild (move line) content')
  | childless (unable : o.containerClass.isContainer = false) :
      Corresponds o o' move (.childless ⟨o.containerClass, "add_child"⟩)
        (.childless ⟨o'.containerClass, "add_child"⟩)

/-- Two parsers that have built the same drafts, with classes of containers that take children or
both do not. -/
structure Parser.Corresponds (p p' : Parser) : Prop where
  able : p'.options.containerClass.isContainer = p.options.containerClass.isContainer
  finished : p'.finished = p.finished
  focus : p'.focus = p.focus

/-- Two steps or runs that both go through, to parsers that correspond, or both fail. -/
inductive ParserStep.Corresponds (o o' : OutlineOptions) (move : Int → Int)
    (s s' : ParserStep) : Prop where
  | taken (ok : s.error = none) (ok' : s'.error = none) (parsers : s.parser.Corresponds s'.parser)
  | failed {e e' : OutlineError} (error : s.error = some e) (error' : s'.error = some e')
      (errors : e.Corresponds o o' move e')

namespace Parser

variable {p p' : Parser} {t t' : Tag} {s r : ParserStep} {ts : List Tag} {move : Int → Int}

theorem step_of_opensChild (role : p.options.role t.key = .opensChild) :
    p.step t = (p.readTo t).openChild t := by
  simp only [step, role]
  rfl

/-- A parser takes a tag in one way only. -/
theorem Takes.eq_step (h : Takes p t s) : s = p.step t := by
  cases h with
  | container role => simp [step, role, openContainer, close, readTo]
  | child role opened able =>
    rw [step_of_opensChild role, openChild_of_opened (p := p.readTo t) opened, readTo_options,
      if_pos able]
    rfl
  | orphan role closed =>
    simp [step, role, openChild, closed, readTo, Source.readTo, Source.line]
  | childless role opened unable =>
    cases hc : p.focus.container? with
    | none => exact absurd (Focus.container?_eq_none_iff.mp hc) opened
    | some c =>
      rw [step_of_opensChild role, openChild_of_opened (p := p.readTo t) hc, readTo_options,
        if_neg (by simp [unable])]
  | bare role => simp [step, role, readTo]
  | stray role closed => simp [step, role, writeAttribute, closed, readTo]
  | written role opened =>
    cases hf : p.focus with
    | none => exact absurd hf opened
    | container c => simp [step, role, writeAttribute, hf, readTo]
    | child c d => simp [step, role, writeAttribute, hf, readTo]

/-- Tags lead to one run only. -/
theorem Runs.eq_takeAll (h : Runs p ts r) : r = p.takeAll ts := by
  induction h with
  | finish p => rfl
  | @stop p t s e ts first failed =>
    have whole : s = ⟨s.parser, s.notices, some e⟩ := by rw [← failed]
    rw [takeAll, ← first.eq_step, failed]
    exact whole
  | go first taken others ih =>
    rw [takeAll, ← first.eq_step, taken, ← ih]

/-- Parsers that correspond take tags that correspond in the same way. -/
theorem Takes.corresponding (h : Takes p t s) (parsers : p.Corresponds p')
    (tags : t.Corresponds p.options p'.options move t') :
    ∃ s', Takes p' t' s' ∧ s.Corresponds p.options p'.options move s' := by
  obtain ⟨able, finished, focus⟩ := parsers
  cases h with
  | container role =>
    refine ⟨_, .container (tags.role.trans role), .taken rfl rfl ⟨able, ?_, ?_⟩⟩
    · rw [finished, focus]
    · rw [tags.value]
  | child role opened unable =>
    refine ⟨_, .child (tags.role.trans role) (focus ▸ opened) (able.trans unable),
      .taken rfl rfl ⟨able, finished, ?_⟩⟩
    rw [tags.value]
  | orphan role closed =>
    refine ⟨_, .orphan (tags.role.trans role) (focus.trans closed), .failed rfl rfl ?_⟩
    rw [tags.line]
    exact .orphanChild ..
  | childless role opened unable =>
    exact ⟨_, .childless (tags.role.trans role) (focus ▸ opened) (able.trans unable),
      .failed rfl rfl (.childless unable)⟩
  | bare role =>
    exact ⟨_, .bare (tags.role.trans role), .taken rfl rfl ⟨able, finished, focus⟩⟩
  | stray role closed =>
    exact ⟨_, .stray (tags.role.trans role) (focus.trans closed),
      .taken rfl rfl ⟨able, finished, focus⟩⟩
  | written role opened =>
    refine ⟨_, .written (tags.role.trans role) (focus ▸ opened),
      .taken rfl rfl ⟨able, finished, ?_⟩⟩
    rw [focus, tags.key role, tags.value]

/-- Runs over tags that correspond, one by one, correspond. -/
theorem Runs.corresponding (h : Runs p ts r) (parsers : p.Corresponds p') {f : Tag → Tag}
    (tags : ∀ t ∈ ts, t.Corresponds p.options p'.options move (f t)) :
    ∃ r', Runs p' (ts.map f) r' ∧ r.Corresponds p.options p'.options move r' := by
  induction h generalizing p' with
  | finish p =>
    refine ⟨_, .finish p', .taken rfl rfl ⟨parsers.able, ?_, rfl⟩⟩
    simp [Parser.finish, close, parsers.finished, parsers.focus]
  | stop ts first failed =>
    obtain ⟨s', first', steps⟩ := first.corresponding parsers (tags _ (by simp))
    cases steps with
    | taken ok ok' parsers =>
      rw [ok] at failed
      cases failed
    | failed error error' errors => exact ⟨s', .stop _ first' error', .failed error error' errors⟩
  | @go p t s r ts first taken others ih =>
    obtain ⟨s', first', steps⟩ := first.corresponding parsers (tags t (by simp))
    cases steps with
    | failed error error' errors =>
      rw [error] at taken
      cases taken
    | taken ok ok' next =>
      rw [← first.options_eq, ← first'.options_eq] at tags ⊢
      obtain ⟨r', others', runs⟩ := ih next fun u hu => tags u (List.mem_cons_of_mem t hu)
      refine ⟨_, .go first' ok' others', ?_⟩
      cases runs with
      | taken ok ok' parsers => exact .taken ok ok' parsers
      | failed error error' errors => exact .failed error error' errors

end Parser

/-- The entities of an outline are those of its drafts. -/
theorem outline_result (o : OutlineOptions) (text : String) :
    (outline o text).result = (draft o text).result.map (List.map (ContainerDraft.toEntity o)) := by
  have options : (Parser.ofText o text).run.parser.options = o :=
    (Parser.runs_takeAll (Parser.ofText o text) _).options_eq
  rw [outline, ParserStep.entities_result, options, draft]

/-- Texts whose tags correspond have the same drafts, or errors that report the same. -/
theorem draft_corresponding {o o' : OutlineOptions} {move : Int → Int} {text text' : String}
    (able : o'.containerClass.isContainer = o.containerClass.isContainer) {f : Tag → Tag}
    (ahead : (Source.ofText text').ahead = (Source.ofText text).ahead.map f)
    (tags : ∀ t ∈ (Source.ofText text).ahead, t.Corresponds o o' move (f t)) :
    (∃ cs, (draft o text).result = .ok cs ∧ (draft o' text').result = .ok cs) ∨
      ∃ e e', (draft o text).result = .error e ∧ (draft o' text').result = .error e' ∧
        e.Corresponds o o' move e' := by
  have parsers : (Parser.ofText o text).Corresponds (.ofText o' text') := ⟨able, rfl, rfl⟩
  obtain ⟨r', hrun, runs⟩ :=
    (Parser.runs_takeAll (Parser.ofText o text) (Source.ofText text).ahead).corresponding
      parsers tags
  have whole : r' = (Parser.ofText o' text').run := by
    rw [hrun.eq_takeAll, ← ahead]
    rfl
  rw [whole] at runs
  cases runs with
  | taken ok ok' parsers =>
    refine Or.inl ⟨_, ParserStep.drafts_eq_ok_iff.mpr ⟨ok, rfl⟩, ?_⟩
    exact ParserStep.drafts_eq_ok_iff.mpr ⟨ok', parsers.finished⟩
  | failed error error' errors =>
    exact Or.inr ⟨_, _, ParserStep.drafts_eq_error_iff.mpr error,
      ParserStep.drafts_eq_error_iff.mpr error', errors⟩

/-- Texts whose tags correspond have outlines with the same drafts, or errors that report the
same. -/
theorem outline_corresponding {o o' : OutlineOptions} {move : Int → Int} {text text' : String}
    (able : o'.containerClass.isContainer = o.containerClass.isContainer) {f : Tag → Tag}
    (ahead : (Source.ofText text').ahead = (Source.ofText text).ahead.map f)
    (tags : ∀ t ∈ (Source.ofText text).ahead, t.Corresponds o o' move (f t)) :
    (∃ cs : List ContainerDraft, (outline o text).result = .ok (cs.map (·.toEntity o)) ∧
        (outline o' text').result = .ok (cs.map (·.toEntity o'))) ∨
      ∃ e e', (outline o text).result = .error e ∧ (outline o' text').result = .error e' ∧
        e.Corresponds o o' move e' := by
  rw [outline_result, outline_result]
  rcases draft_corresponding able ahead tags with ⟨cs, ok, ok'⟩ | ⟨e, e', error, error', errors⟩
  · rw [ok, ok']
    exact Or.inl ⟨cs, rfl, rfl⟩
  · rw [error, error']
    exact Or.inr ⟨e, e', rfl, rfl, errors⟩

end TagOutline
