import Mathlib.Data.List.Basic
import TagOutline.Proofs.Outline.Entries
import TagOutline.Proofs.Tag.Source

/-!
# No tag is lost

Every tag of an outline is either stored, in one place and in the order of the text, or passed over
with one warning. What a parser has stored is read off its state: the entries of the containers that
it has finished and of the one that is open. A step puts the entry of its tag behind these or leaves
them as they are and warns. For that the open container must have no children as long as attributes
are written to it, which is the invariant of the parser.
-/

namespace TagOutline

/-- A tag that is passed over, among the tags of a text: it has no key, or it is an attribute and
stands before all tags that open a container. -/
def OutlineOptions.IsPassedOver (o : OutlineOptions) (ts : List Tag) (t : Tag) : Prop :=
  o.role t.key = .bare ∨
    o.role t.key = .attribute ∧ ∀ u ∈ ts, o.role u.key = .opensContainer → t.line < u.line

instance (o : OutlineOptions) (ts : List Tag) (t : Tag) : Decidable (o.IsPassedOver ts t) :=
  inferInstanceAs (Decidable (_ ∨ _))

def Tag.warning (t : Tag) : Notice :=
  if t.key = "" then .bareSigil t.line else .strayAttribute t.line t.key

/-- What is told of a tag that opens a container. -/
def Tag.opening (t : Tag) : Notice :=
  .containerOpened t.line t.value

theorem Tag.level_warning (t : Tag) : t.warning.level = .warning := by
  unfold warning
  split
  · rfl
  · rfl

/-- Everything is shown at the last print level. -/
theorem Notice.isShown_three (n : Notice) : n.isShown 3 = true := by
  cases n <;> rfl

namespace Parser

/-- The entries of all that a parser holds. -/
def stored (p : Parser) : List Write :=
  (p.finished ++ p.focus.container?.toList).flatMap (ContainerDraft.entries p.options)

/-- Attributes are written to the open container only before its first child. -/
def IsFresh (p : Parser) : Prop :=
  ∀ c, p.focus = .container c → c.children = []

/-- A tag that the parser passes over, where `ts` are the tags from this one on. -/
def PassesOver (p : Parser) (ts : List Tag) (t : Tag) : Prop :=
  p.options.role t.key = .bare ∨ p.options.role t.key = .attribute ∧ p.focus = .none ∧
    ∀ u ∈ ts, p.options.role u.key = .opensContainer → t.line < u.line

instance (p : Parser) (ts : List Tag) (t : Tag) : Decidable (p.PassesOver ts t) :=
  inferInstanceAs (Decidable (_ ∨ _))

/-- What the parser tells of a tag, where `ts` are the tags from this one on. -/
def notice? (p : Parser) (ts : List Tag) (t : Tag) : Option Notice :=
  if p.PassesOver ts t then some t.warning
  else if p.options.role t.key = .opensContainer then some t.opening
  else none

variable {p : Parser} {t : Tag} {s r : ParserStep} {ts : List Tag}

/-- No step leads to an open container that attributes are written to behind a child. -/
theorem Takes.isFresh (h : Takes p t s) (fresh : p.IsFresh) : s.parser.IsFresh := by
  cases h with
  | container role =>
    intro c hc
    rw [← Focus.container.inj hc]
    rfl
  | child role opened able =>
    intro c hc
    cases hc
  | orphan role closed => exact fresh
  | childless role opened unable => exact fresh
  | bare role => exact fresh
  | stray role closed => exact fresh
  | written role opened =>
    intro c hc
    cases hf : p.focus with
    | none => exact absurd hf opened
    | container d =>
      have hd : d.write (t.key, t.value) = c := by simpa [hf, Focus.write] using hc
      rw [← hd]
      exact fresh d hf
    | child d e =>
      rw [hf] at hc
      cases hc

/-- A step passes its tag over or puts its entry behind all that is stored. -/
theorem Takes.stored_eq (h : Takes p t s) (taken : s.error = none) (fresh : p.IsFresh) :
    s.parser.stored = p.stored ++ if p.PassesOver [] t then [] else [t.entry] := by
  cases h with
  | container role =>
    have hentry : t.entry = (p.options.containerTag, t.value) := by
      rw [Tag.entry, OutlineOptions.role_eq_opensContainer_iff.mp role]
    have kept : ¬ p.PassesOver [] t := by simp [PassesOver, role]
    rw [if_neg kept, hentry]
    simp [stored, Focus.container?, ContainerDraft.entries, ContainerDraft.new]
  | @child c role opened able =>
    have hentry : t.entry = (p.options.childTag, t.value) := by
      rw [Tag.entry, (OutlineOptions.role_eq_opensChild_iff.mp role).1]
    have kept : ¬ p.PassesOver [] t := by simp [PassesOver, role]
    rw [if_neg kept, hentry]
    simp only [stored, opened]
    simp [Focus.container?, ContainerDraft.entries, ContainerDraft.addChild, ChildDraft.entries,
      ChildDraft.new]
  | orphan role closed => cases taken
  | childless role opened unable => cases taken
  | bare role => simp [stored, PassesOver, role]
  | stray role closed => simp [stored, PassesOver, role, closed]
  | written role opened =>
    have kept : ¬ p.PassesOver [] t := by simp [PassesOver, role, opened]
    rw [if_neg kept]
    cases hf : p.focus with
    | none => exact absurd hf opened
    | container c =>
      simp [stored, hf, Focus.write, Focus.container?, ContainerDraft.write, ContainerDraft.entries,
        fresh c hf, Tag.entry]
    | child c d =>
      simp [stored, hf, Focus.write, Focus.container?, ContainerDraft.addChild, ChildDraft.write,
        ContainerDraft.entries, ChildDraft.entries, Tag.entry]

/-- A step gives the notice of its tag and no other. -/
theorem Takes.notices_eq (h : Takes p t s) (taken : s.error = none) :
    s.notices = (p.notice? [] t).toList := by
  cases h with
  | container role => simp [notice?, PassesOver, role, Tag.opening]
  | child role opened able => simp [notice?, PassesOver, role]
  | orphan role closed => cases taken
  | childless role opened unable => cases taken
  | bare role =>
    have hkey : t.key = "" := (OutlineOptions.role_eq_bare_iff.mp role).1
    have passed : p.PassesOver [] t := Or.inl role
    rw [notice?, if_pos passed, Tag.warning, if_pos hkey]
    rfl
  | stray role closed =>
    have hkey : t.key ≠ "" := (OutlineOptions.role_eq_attribute_iff.mp role).1
    have passed : p.PassesOver [] t := Or.inr ⟨role, closed, by simp⟩
    rw [notice?, if_pos passed, Tag.warning, if_neg hkey]
    rfl
  | written role opened => simp [notice?, PassesOver, role, opened]

/-- Nothing is open behind a step if and only if nothing was and no container was opened. -/
theorem Takes.focus_eq_none_iff (h : Takes p t s) (taken : s.error = none) :
    s.parser.focus = .none ↔ p.focus = .none ∧ p.options.role t.key ≠ .opensContainer := by
  cases h with
  | container role => simp [role]
  | @child c role opened able =>
    have hopen : p.focus ≠ .none := by
      intro closed
      rw [Focus.container?_eq_none_iff.mpr closed] at opened
      cases opened
    simp [hopen]
  | orphan role closed => cases taken
  | childless role opened unable => cases taken
  | bare role => simp [role]
  | stray role closed => simp [role, closed]
  | written role opened =>
    cases hf : p.focus with
    | none => exact absurd hf opened
    | container c => simp [Focus.write]
    | child c d => simp [Focus.write]

section Ordered

variable (ordered : (t :: ts).Pairwise fun t u => t.line < u.line)
include ordered

/-- An attribute with nothing open stands before all containers that are still to come. -/
theorem passesOver_head_iff : p.PassesOver (t :: ts) t ↔ p.PassesOver [] t := by
  unfold PassesOver
  constructor
  · rintro (role | ⟨role, closed, -⟩)
    · exact Or.inl role
    · exact Or.inr ⟨role, closed, by simp⟩
  · rintro (role | ⟨role, closed, -⟩)
    · exact Or.inl role
    · refine Or.inr ⟨role, closed, ?_⟩
      intro u hu hcontainer
      rcases List.mem_cons.mp hu with rfl | hu
      · rw [role] at hcontainer
        cases hcontainer
      · exact List.rel_of_pairwise_cons ordered hu

/-- What is passed over behind a step is what was to be passed over before. -/
theorem Takes.passesOver_iff (h : Takes p t s) (taken : s.error = none) {u : Tag} (hu : u ∈ ts) :
    s.parser.PassesOver ts u ↔ p.PassesOver (t :: ts) u := by
  have hline : t.line < u.line := List.rel_of_pairwise_cons ordered hu
  unfold PassesOver
  rw [h.options_eq, h.focus_eq_none_iff taken]
  constructor
  · rintro (role | ⟨role, ⟨closed, first⟩, later⟩)
    · exact Or.inl role
    · refine Or.inr ⟨role, closed, ?_⟩
      intro v hv hcontainer
      rcases List.mem_cons.mp hv with rfl | hv
      · exact absurd hcontainer first
      · exact later v hv hcontainer
  · rintro (role | ⟨role, closed, later⟩)
    · exact Or.inl role
    · refine Or.inr ⟨role, ⟨closed, ?_⟩, fun v hv => later v (List.mem_cons_of_mem t hv)⟩
      intro hcontainer
      have hbefore := later t (by simp) hcontainer
      omega

end Ordered

/-- A run without an error stores the entries of all tags that are not passed over, in order. -/
theorem Runs.stored_eq (h : Runs p ts r) (ok : r.error = none) (fresh : p.IsFresh)
    (ordered : ts.Pairwise fun t u => t.line < u.line) :
    r.parser.finished.flatMap (ContainerDraft.entries p.options) =
      p.stored ++ (ts.filter fun t => ¬ p.PassesOver ts t).map Tag.entry := by
  induction h with
  | finish p => simp [Parser.finish, close, stored]
  | stop ts first failed =>
    rw [ok] at failed
    cases failed
  | @go p t s r ts first taken others ih =>
    have hrest := ih ok (first.isFresh fresh) ordered.of_cons
    have same : (ts.filter fun u => ¬ s.parser.PassesOver ts u) =
        ts.filter fun u => ¬ p.PassesOver (t :: ts) u := by
      apply List.filter_congr
      intro u hu
      simp only [first.passesOver_iff ordered taken hu]
    rw [first.options_eq, first.stored_eq taken fresh, same] at hrest
    rw [hrest, List.filter_cons, List.append_assoc]
    by_cases hpass : p.PassesOver [] t
    · have hpass' := (passesOver_head_iff ordered).mpr hpass
      simp [hpass, hpass']
    · have hpass' : ¬ p.PassesOver (t :: ts) t := mt (passesOver_head_iff ordered).mp hpass
      simp [hpass, hpass']

/-- A run without an error gives the notices of its tags, in order. -/
theorem Runs.notices_eq (h : Runs p ts r) (ok : r.error = none)
    (ordered : ts.Pairwise fun t u => t.line < u.line) :
    r.notices = ts.filterMap (p.notice? ts) := by
  induction h with
  | finish p => rfl
  | stop ts first failed =>
    rw [ok] at failed
    cases failed
  | @go p t s r ts first taken others ih =>
    have head : p.notice? (t :: ts) t = p.notice? [] t := by
      simp only [notice?, passesOver_head_iff ordered]
    have same : ts.filterMap (s.parser.notice? ts) = ts.filterMap (p.notice? (t :: ts)) := by
      apply List.filterMap_congr
      intro u hu
      simp only [notice?, first.passesOver_iff ordered taken hu, first.options_eq]
    rw [ih ok ordered.of_cons, first.notices_eq taken, same, ← head, List.filterMap_cons]
    cases p.notice? (t :: ts) t with
    | none => rfl
    | some n => rfl

theorem filter_warning_notices (p : Parser) (ts us : List Tag) :
    (us.filterMap (p.notice? ts)).filter (fun n => n.level = .warning) =
      (us.filter fun t => p.PassesOver ts t).map Tag.warning := by
  rw [List.filter_filterMap, ← List.filterMap_eq_map, List.filterMap_filter]
  apply List.filterMap_congr
  intro t ht
  by_cases passed : p.PassesOver ts t
  · simp [notice?, passed, t.level_warning]
  · by_cases role : p.options.role t.key = .opensContainer
    · simp [notice?, passed, role, Tag.opening, Notice.level]
    · simp [notice?, passed, role]

theorem filter_debug_notices (p : Parser) (ts us : List Tag) :
    (us.filterMap (p.notice? ts)).filter (fun n => n.level = .debug) =
      (us.filter fun t => p.options.role t.key = .opensContainer).map Tag.opening := by
  rw [List.filter_filterMap, ← List.filterMap_eq_map, List.filterMap_filter]
  apply List.filterMap_congr
  intro t ht
  by_cases role : p.options.role t.key = .opensContainer
  · have kept : ¬ p.PassesOver ts t := by simp [PassesOver, role]
    simp [notice?, kept, role, Tag.opening, Notice.level]
  · by_cases passed : p.PassesOver ts t
    · simp [notice?, passed, role, t.level_warning]
    · simp [notice?, passed, role]

theorem level_of_notice? {p : Parser} {ts : List Tag} {t : Tag} {n : Notice}
    (h : p.notice? ts t = some n) : n.level = .warning ∨ n.level = .debug := by
  unfold notice? at h
  split at h
  · rw [← Option.some.inj h]
    exact Or.inl t.level_warning
  · split at h
    · rw [← Option.some.inj h]
      exact Or.inr rfl
    · cases h

/-- With nothing open, all tags of a text are still to come. -/
theorem passesOver_ofText (o : OutlineOptions) (text : String) (ts : List Tag) (t : Tag) :
    (ofText o text).PassesOver ts t ↔ o.IsPassedOver ts t := by
  simp [PassesOver, OutlineOptions.IsPassedOver, ofText]

theorem isFresh_ofText (o : OutlineOptions) (text : String) : (ofText o text).IsFresh := by
  intro c hc
  cases hc

end Parser

/-- No tag of an outline is lost and none is there twice. The containers, taken apart into entries,
are the tags of the text without those that are passed over. At the last print level the warnings
are one for each tag that is passed over and the details one for each container, both in the order
of the lines, and nothing else is told. The number of a tag is that of its line. So what is stored
and what is warned about make up all tags. -/
theorem draft_conserves_tags (o : OutlineOptions) (text : String) (cs : List ContainerDraft)
    (h : (draft o text).result = .ok cs) :
    let tags := (Source.ofText text).ahead
    let log := (draft o text).notices.filter (Notice.isShown 3)
    cs.flatMap (ContainerDraft.entries o) =
        (tags.filter fun t => ¬ o.IsPassedOver tags t).map Tag.entry ∧
      log.filter (fun n => n.level = .warning) =
        (tags.filter fun t => o.IsPassedOver tags t).map Tag.warning ∧
      log.filter (fun n => n.level = .debug) =
        (tags.filter fun t => o.role t.key = .opensContainer).map Tag.opening ∧
      (∀ n ∈ log, n.level = .warning ∨ n.level = .debug) ∧
      (tags.Pairwise fun t u => t.line < u.line) ∧
      (∀ t ∈ tags, ∃ (i : Nat) (l : String), (Text.lines text)[i]? = some l ∧
        Tag.ofLine? l t.line = some t ∧ t.line = (i + 1 : Nat)) ∧
      (cs.flatMap (ContainerDraft.entries o) ++
        (tags.filter fun t => o.IsPassedOver tags t).map Tag.entry).Perm (tags.map Tag.entry) := by
  intro tags log
  obtain ⟨ok, rfl⟩ := ParserStep.drafts_eq_ok_iff.mp h
  have hrun : Parser.Runs (.ofText o text) tags (Parser.ofText o text).run :=
    Parser.runs_takeAll (Parser.ofText o text) tags
  have ordered : tags.Pairwise fun t u => t.line < u.line :=
    Source.pairwise_line_tagsAfter 0 (Text.lines text)
  have hlog : log = tags.filterMap ((Parser.ofText o text).notice? tags) := by
    have hall : log = (draft o text).notices :=
      List.filter_eq_self.mpr fun n _ => n.isShown_three
    exact hall.trans (hrun.notices_eq ok ordered)
  have hstored : (Parser.ofText o text).run.parser.finished.flatMap (ContainerDraft.entries o) =
      (tags.filter fun t => ¬ o.IsPassedOver tags t).map Tag.entry := by
    have hwhole := hrun.stored_eq ok (Parser.isFresh_ofText o text) ordered
    simp only [Parser.passesOver_ofText] at hwhole
    exact hwhole
  refine ⟨hstored, ?_, ?_, ?_, ordered, fun t ht => Source.exists_line_of_mem_ahead ht, ?_⟩
  · rw [hlog, Parser.filter_warning_notices]
    simp only [Parser.passesOver_ofText]
  · rw [hlog]
    exact Parser.filter_debug_notices _ tags tags
  · intro n hn
    rw [hlog] at hn
    obtain ⟨t, -, hnotice⟩ := List.mem_filterMap.mp hn
    exact Parser.level_of_notice? hnotice
  · rw [hstored, ← List.map_append]
    apply List.Perm.map
    have hparts := List.filter_append_perm (fun t => decide (¬ o.IsPassedOver tags t)) tags
    simpa using hparts

/-- A form and its input. The attribute before the form and the two bare sigils are warned about,
and the other four tags are stored. -/
theorem draft_conserves_tags_of_form :
    let tags := (Source.ofText "@k lost\n@\n@form A\n@\n@k 1\n@input a\n@t x").ahead
    (draft (.ofDialect .form) "@k lost\n@\n@form A\n@\n@k 1\n@input a\n@t x").result =
        .ok [⟨"A", [("k", "1")], [⟨"a", [("t", "x")]⟩]⟩] ∧
      (tags.filter fun t => ¬ (OutlineOptions.ofDialect .form).IsPassedOver tags t).map Tag.entry =
        [("form", "A"), ("k", "1"), ("input", "a"), ("t", "x")] ∧
      (tags.filter fun t => (OutlineOptions.ofDialect .form).IsPassedOver tags t).map Tag.warning =
        [.strayAttribute 1 "k", .bareSigil 2, .bareSigil 4] := by
  have ok : (draft (.ofDialect .form) "@k lost\n@\n@form A\n@\n@k 1\n@input a\n@t x").result =
      .ok [⟨"A", [("k", "1")], [⟨"a", [("t", "x")]⟩]⟩] := rfl
  have warnings : ((draft (.ofDialect .form)
      "@k lost\n@\n@form A\n@\n@k 1\n@input a\n@t x").notices.filter (Notice.isShown 3)).filter
        (fun n => n.level = .warning) = [.strayAttribute 1 "k", .bareSigil 2, .bareSigil 4] := rfl
  obtain ⟨stored, warned, -⟩ := draft_conserves_tags _ _ _ ok
  exact ⟨ok, stored.symm, warned.symm.trans warnings⟩

end TagOutline
