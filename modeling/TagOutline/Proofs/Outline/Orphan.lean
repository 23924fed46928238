import TagOutline.Proofs.Outline.Reading
import TagOutline.Proofs.Tag.Source

/-!
# Children without a container

The one error of the parser. Once a container is open one stays open until the text ends, so only
the first tag that opens something can be at fault, and it is if it opens a child. The error gives
the line of that tag, nothing is finished when it comes up, and the lines behind it play no part.
-/

namespace TagOutline

namespace OutlineOptions

variable {o : OutlineOptions}

/-- A tag that opens a child, where none of the tags before it opens a container. -/
structure IsOrphan (o : OutlineOptions) (before : List Tag) (t : Tag) : Prop where
  child : t.key = o.childTag
  notContainer : t.key ≠ o.containerTag
  closed : ∀ u ∈ before, u.key ≠ o.containerTag

/-- The first of some tags that opens something, if it opens a child. -/
def orphan? (o : OutlineOptions) (ts : List Tag) : Option Tag :=
  (ts.find? fun t => o.opens t.entry).filter fun t => o.role t.key = .opensChild

theorem opens_entry_iff {t : Tag} :
    o.opens t.entry = true ↔ t.key = o.containerTag ∨ t.key = o.childTag := by
  simp only [opens, Tag.entry, Bool.or_eq_true, decide_eq_true_eq, role_eq_opensContainer_iff,
    role_eq_opensChild_iff]
  constructor
  · rintro (hc | ⟨hd, -⟩)
    · exact Or.inl hc
    · exact Or.inr hd
  · rintro (hc | hd)
    · exact Or.inl hc
    · by_cases hc : t.key = o.containerTag
      · exact Or.inl hc
      · exact Or.inr ⟨hd, hc⟩

/-- The orphan is a tag that opens a child behind tags that open nothing. -/
theorem orphan?_eq_some_iff {ts : List Tag} {t : Tag} :
    o.orphan? ts = some t ↔ ∃ before after, ts = before ++ t :: after ∧ o.IsOrphan before t ∧
      ∀ u ∈ before, u.key ≠ o.childTag := by
  rw [orphan?, Option.filter_eq_some_iff, List.find?_eq_some_iff_append]
  simp only [decide_eq_true_eq, role_eq_opensChild_iff, Bool.not_eq_true', ← Bool.not_eq_true,
    opens_entry_iff, not_or]
  constructor
  · rintro ⟨⟨-, before, after, whole, closed⟩, child, notContainer⟩
    exact ⟨before, after, whole, ⟨child, notContainer, fun u hu => (closed u hu).1⟩,
      fun u hu => (closed u hu).2⟩
  · rintro ⟨before, after, whole, orphan, first⟩
    exact ⟨⟨Or.inr orphan.child, before, after, whole,
      fun u hu => ⟨orphan.closed u hu, first u hu⟩⟩, orphan.child, orphan.notContainer⟩

/-- There is an orphan as soon as any tag opens a child before the first container. -/
theorem exists_orphan?_iff {ts : List Tag} :
    (∃ t, o.orphan? ts = some t) ↔
      ∃ before t after, ts = before ++ t :: after ∧ o.IsOrphan before t := by
  constructor
  · rintro ⟨t, ht⟩
    obtain ⟨before, after, whole, orphan, -⟩ := orphan?_eq_some_iff.mp ht
    exact ⟨before, t, after, whole, orphan⟩
  · rintro ⟨before, t, after, rfl, orphan⟩
    cases hu : before.find? fun t => o.opens t.entry with
    | some u =>
      have hclosed : u.key ≠ o.containerTag := orphan.closed u (List.mem_of_find?_eq_some hu)
      have hopens : o.opens u.entry = true := by simpa using List.find?_some hu
      have hchild : u.key = o.childTag := (opens_entry_iff.mp hopens).resolve_left hclosed
      have role : o.role u.key = .opensChild := role_eq_opensChild_iff.mpr ⟨hchild, hclosed⟩
      exact ⟨u, by simp [orphan?, List.find?_append, hu, role]⟩
    | none =>
      have hopens : o.opens t.entry = true := opens_entry_iff.mpr (Or.inr orphan.child)
      have role : o.role t.key = .opensChild :=
        role_eq_opensChild_iff.mpr ⟨orphan.child, orphan.notContainer⟩
      exact ⟨t, by simp [orphan?, List.find?_append, hu, hopens, role]⟩

/-- Tags behind one that opens something play no part in finding the orphan. -/
theorem orphan?_append {ts : List Tag} (opened : ∃ t ∈ ts, o.opens t.entry = true)
    (us : List Tag) : o.orphan? (ts ++ us) = o.orphan? ts := by
  obtain ⟨t, ht, hopens⟩ := opened
  cases hu : ts.find? fun t => o.opens t.entry with
  | none => exact absurd hopens (List.find?_eq_none.mp hu t ht)
  | some u => simp [orphan?, List.find?_append, hu]

theorem opens_entry_of_bare {t : Tag} (role : o.role t.key = .bare) : o.opens t.entry = false := by
  simp [opens, Tag.entry, role]

theorem opens_entry_of_attribute {t : Tag} (role : o.role t.key = .attribute) :
    o.opens t.entry = false := by
  simp [opens, Tag.entry, role]

theorem orphan?_cons_of_container {t : Tag} (role : o.role t.key = .opensContainer)
    (ts : List Tag) : o.orphan? (t :: ts) = none := by
  simp [orphan?, opens, Tag.entry, role]

theorem orphan?_cons_of_child {t : Tag} (role : o.role t.key = .opensChild) (ts : List Tag) :
    o.orphan? (t :: ts) = some t := by
  simp [orphan?, opens, Tag.entry, role]

theorem orphan?_cons_of_not_opens {t : Tag} (h : o.opens t.entry = false) (ts : List Tag) :
    o.orphan? (t :: ts) = o.orphan? ts := by
  simp [orphan?, h]

/-- The error where a container is open: a child, if the class of the containers takes none. -/
def childless? (o : OutlineOptions) (ts : List Tag) : Option OutlineError :=
  if o.containerClass.isContainer = false ∧ ∃ t ∈ ts, o.role t.key = .opensChild then
    some (.childless ⟨o.containerClass, "add_child"⟩)
  else none

/-- The error where nothing is open: the orphan, or else a child behind the first container, if the
class of the containers takes none. -/
def fault? (o : OutlineOptions) (s : Source) (ts : List Tag) : Option OutlineError :=
  match o.orphan? ts with
  | some t => some (.orphanChild t.line (Text.trimmed (s.line t.line)))
  | none => o.childless? ts

theorem fault?_of_orphan {ts : List Tag} {t : Tag} (orphan : o.orphan? ts = some t) (s : Source) :
    o.fault? s ts = some (.orphanChild t.line (Text.trimmed (s.line t.line))) := by
  rw [fault?, orphan]

theorem fault?_of_no_orphan {ts : List Tag} (noOrphan : o.orphan? ts = none) (s : Source) :
    o.fault? s ts = o.childless? ts := by
  rw [fault?, noOrphan]

theorem childless?_eq_none_iff {ts : List Tag} : o.childless? ts = none ↔
    ∀ t ∈ ts, o.role t.key = .opensChild → o.containerClass.isContainer = true := by
  unfold childless?
  cases o.containerClass.isContainer <;> simp

theorem fault?_eq_none_iff {s : Source} {ts : List Tag} :
    o.fault? s ts = none ↔ o.orphan? ts = none ∧ o.childless? ts = none := by
  cases orphan : o.orphan? ts with
  | some t => simp [fault?_of_orphan orphan]
  | none => simp [fault?_of_no_orphan orphan]

theorem childless?_of_able (able : o.containerClass.isContainer = true) (ts : List Tag) :
    o.childless? ts = none :=
  childless?_eq_none_iff.mpr fun _ _ _ => able

theorem childless?_cons {t : Tag}
    (able : o.role t.key = .opensChild → o.containerClass.isContainer = true) (ts : List Tag) :
    o.childless? (t :: ts) = o.childless? ts := by
  by_cases role : o.role t.key = .opensChild
  · rw [childless?_of_able (able role), childless?_of_able (able role)]
  · simp [childless?, role]

theorem childless?_cons_of_ne {t : Tag} (role : o.role t.key ≠ .opensChild) (ts : List Tag) :
    o.childless? (t :: ts) = o.childless? ts :=
  childless?_cons (fun child => absurd child role) ts

theorem fault?_of_able (able : o.containerClass.isContainer = true) (s : Source) (ts : List Tag) :
    o.fault? s ts =
      (o.orphan? ts).map fun t => .orphanChild t.line (Text.trimmed (s.line t.line)) := by
  cases orphan : o.orphan? ts with
  | some t => exact fault?_of_orphan orphan s
  | none =>
    rw [fault?_of_no_orphan orphan]
    exact childless?_of_able able ts

theorem fault?_cons_of_container {t : Tag} (role : o.role t.key = .opensContainer) (s : Source)
    (ts : List Tag) : o.fault? s (t :: ts) = o.childless? ts := by
  have notChild : o.role t.key ≠ .opensChild := by simp [role]
  rw [fault?_of_no_orphan (orphan?_cons_of_container role ts)]
  exact childless?_cons_of_ne notChild ts

theorem fault?_cons_of_not_opens {t : Tag} (h : o.opens t.entry = false) (s : Source)
    (ts : List Tag) : o.fault? s (t :: ts) = o.fault? s ts := by
  have notChild : o.role t.key ≠ .opensChild := by
    intro role
    simp [opens, Tag.entry, role] at h
  rw [fault?, fault?, orphan?_cons_of_not_opens h, childless?_cons_of_ne notChild]

end OutlineOptions

theorem Focus.write_ne_none {f : Focus} (opened : f ≠ .none) (w : Write) : f.write w ≠ .none := by
  cases f with
  | none => exact absurd rfl opened
  | container c => simp [Focus.write]
  | child c d => simp [Focus.write]

namespace Parser

variable {p : Parser} {t : Tag} {ts : List Tag} {s r : ParserStep}

/-- A step that fails has done nothing but read a tag that opens a child. Either nothing is open, or
the class of the containers takes no children. -/
theorem Takes.cases_of_error (h : Takes p t s) {e : OutlineError} (failed : s.error = some e) :
    p.options.role t.key = .opensChild ∧ s.parser = p.readTo t ∧
      (p.focus = .none ∧ e = .orphanChild t.line (Text.trimmed (p.source.line t.line)) ∨
        p.focus ≠ .none ∧ p.options.containerClass.isContainer = false ∧
          e = .childless ⟨p.options.containerClass, "add_child"⟩) := by
  cases h with
  | orphan role closed => exact ⟨role, rfl, Or.inl ⟨closed, (Option.some.inj failed).symm⟩⟩
  | childless role opened unable =>
    exact ⟨role, rfl, Or.inr ⟨opened, unable, (Option.some.inj failed).symm⟩⟩
  | container role => cases failed
  | child role opened able => cases failed
  | bare role => cases failed
  | stray role closed => cases failed
  | written role opened => cases failed

/-- Where a container is open, one stays open. -/
theorem Takes.of_opened (h : Takes p t s) (taken : s.error = none) (opened : p.focus ≠ .none) :
    s.parser.focus ≠ .none ∧
      (p.options.role t.key = .opensChild → p.options.containerClass.isContainer = true) := by
  cases h with
  | container role => exact ⟨by simp, by simp [role]⟩
  | child role _ able => exact ⟨by simp, fun _ => able⟩
  | orphan role closed => cases taken
  | childless role opened unable => cases taken
  | bare role => exact ⟨opened, by simp [role]⟩
  | stray role closed => exact absurd closed opened
  | written role opened => exact ⟨Focus.write_ne_none opened _, by simp [role]⟩

/-- Where nothing is open, a container is opened, or a tag that opens nothing is passed over. -/
theorem Takes.of_closed (h : Takes p t s) (taken : s.error = none) (closed : p.focus = .none) :
    p.options.role t.key = .opensContainer ∧ s.parser.focus ≠ .none ∨
      p.options.opens t.entry = false ∧ s.parser = p.readTo t := by
  cases h with
  | container role => exact Or.inl ⟨role, by simp⟩
  | child role opened able =>
    rw [closed] at opened
    cases opened
  | orphan role closed => cases taken
  | childless role opened unable => cases taken
  | bare role => exact Or.inr ⟨OutlineOptions.opens_entry_of_bare role, rfl⟩
  | stray role closed => exact Or.inr ⟨OutlineOptions.opens_entry_of_attribute role, rfl⟩
  | written role opened => exact absurd closed opened

/-- Where a container is open, a run stops at a child only if the class of the containers takes
none. -/
theorem Runs.error_eq_of_opened (h : Runs p ts r) (opened : p.focus ≠ .none) :
    r.error = p.options.childless? ts := by
  induction h with
  | finish p => simp [OutlineOptions.childless?]
  | stop ts first failed =>
    obtain ⟨role, -, ⟨closed, -⟩ | ⟨-, unable, rfl⟩⟩ := first.cases_of_error failed
    · exact absurd closed opened
    · rw [failed]
      simp [OutlineOptions.childless?, unable, role]
  | go first taken others ih =>
    obtain ⟨still, able⟩ := first.of_opened taken opened
    rw [OutlineOptions.childless?_cons able, ← first.options_eq]
    exact ih still

/-- Where nothing is open, a run stops at the fault among its tags. -/
theorem Runs.error_eq_of_closed (h : Runs p ts r) (closed : p.focus = .none) :
    r.error = p.options.fault? p.source ts := by
  induction h with
  | finish p => simp [OutlineOptions.fault?, OutlineOptions.orphan?, OutlineOptions.childless?]
  | stop ts first failed =>
    obtain ⟨role, -, ⟨-, rfl⟩ | ⟨opened, -⟩⟩ := first.cases_of_error failed
    · rw [failed, OutlineOptions.fault?_of_orphan (OutlineOptions.orphan?_cons_of_child role _)]
    · exact absurd closed opened
  | go first taken others ih =>
    rcases first.of_closed taken closed with ⟨role, opened⟩ | ⟨closes, read⟩
    · rw [OutlineOptions.fault?_cons_of_container role, ← first.options_eq]
      exact others.error_eq_of_opened opened
    · rw [read] at ih
      rw [OutlineOptions.fault?_cons_of_not_opens closes]
      exact ih closed

/-- A run that starts with nothing open and stops at an orphan has done nothing but read. -/
theorem Runs.parser_eq_of_orphan (h : Runs p ts r) (closed : p.focus = .none) {u : Tag}
    (orphan : p.options.orphan? ts = some u) : r.parser = p.readTo u := by
  induction h with
  | finish p => cases orphan
  | stop ts first failed =>
    obtain ⟨role, read, -⟩ := first.cases_of_error failed
    rw [OutlineOptions.orphan?_cons_of_child role] at orphan
    rw [read, Option.some.inj orphan]
  | go first taken others ih =>
    rcases first.of_closed taken closed with ⟨role, -⟩ | ⟨closes, read⟩
    · rw [OutlineOptions.orphan?_cons_of_container role] at orphan
      cases orphan
    · rw [OutlineOptions.orphan?_cons_of_not_opens closes] at orphan
      rw [read] at ih
      exact ih closed orphan

/-- A run that starts with a container whose class can take the tags behind it has no error. -/
theorem Runs.error_eq_none_of_container {p : Parser} {t : Tag} {ts : List Tag} {r : ParserStep}
    (h : Runs p (t :: ts) r) (role : p.options.role t.key = .opensContainer)
    (able : ∀ u ∈ ts, p.options.role u.key = .opensChild →
      p.options.containerClass.isContainer = true) : r.error = none := by
  have none : p.options.childless? ts = none := OutlineOptions.childless?_eq_none_iff.mpr able
  by_cases closed : p.focus = .none
  · rw [h.error_eq_of_closed closed, OutlineOptions.fault?_cons_of_container role, none]
  · rw [h.error_eq_of_opened closed, OutlineOptions.childless?_cons_of_ne (by simp [role]), none]

/-- A run without an error opens children only in containers whose class takes children. -/
theorem Runs.able {p : Parser} {ts : List Tag} {r : ParserStep} (h : Runs p ts r)
    (ok : r.error = none) {t : Tag} (ht : t ∈ ts) (role : p.options.role t.key = .opensChild) :
    p.options.containerClass.isContainer = true := by
  have none : p.options.childless? ts = none := by
    by_cases closed : p.focus = .none
    · rw [h.error_eq_of_closed closed] at ok
      exact (OutlineOptions.fault?_eq_none_iff.mp ok).2
    · rw [← h.error_eq_of_opened closed, ok]
  exact OutlineOptions.childless?_eq_none_iff.mp none t ht role

/-- A parser over a text stops at the orphan among the tags of the text, if there is one. -/
theorem error_run {o : OutlineOptions} (able : o.containerClass.isContainer = true)
    (text : String) :
    (ofText o text).run.error = (o.orphan? (Source.ofText text).ahead).map (fun t =>
        .orphanChild t.line (Text.trimmed ((Source.ofText text).line t.line))) ∧
      ((ofText o text).run.error ≠ none → (ofText o text).run.parser.finished = []) := by
  have hrun := runs_takeAll (ofText o text) (Source.ofText text).ahead
  have error := (hrun.error_eq_of_closed rfl).trans (OutlineOptions.fault?_of_able able _ _)
  refine ⟨error, ?_⟩
  intro failed
  cases orphan : o.orphan? (Source.ofText text).ahead with
  | none =>
    rw [orphan] at error
    exact absurd error failed
  | some t => exact congrArg finished (hrun.parser_eq_of_orphan rfl orphan)

end Parser

/-- A line of a text by its number. -/
theorem Source.line_ofText {text line : String} {i : Nat}
    (h : (Text.lines text)[i]? = some line) : (ofText text).line (i + 1 : Nat) = line := by
  have hi : ((i + 1 : Nat) : Int).toNat - 1 = i := by omega
  rw [Source.line, hi, ofText, List.getD_eq_getElem?_getD, h]
  rfl

theorem Source.line_ofText_of_take {text line : String} {n i : Nat}
    (h : ((Text.lines text).take n)[i]? = some line) : (ofText text).line (i + 1 : Nat) = line := by
  apply line_ofText
  by_cases hi : i < n
  · rwa [List.getElem?_take_of_lt hi] at h
  · rw [List.getElem?_take_eq_none (Nat.le_of_not_lt hi)] at h
    cases h

/-- The wording of a child without a container shows the number of the line and the line. -/
theorem OutlineError.message_orphanChild {line : Int} {content : String} (numbered : 0 < line)
    (shown : content ≠ "") :
    (orphanChild line content).message = "Parser Error at Line " ++ decimal line ++
      "\nLine Content: " ++ content ++ "\nError: child declared before any container\n" := by
  have hshown : ¬ content.isEmpty = true := by simpa using shown
  rw [message, orphanReport, Report.text, if_pos numbered, if_neg hshown]
  apply String.toList_inj.mp
  simp [ReportKind.heading, toString]

/-- A text has the reading of its tags for a draft, unless there is a fault among them. -/
theorem draft_result (o : OutlineOptions) (text : String) :
    (draft o text).result =
      match o.fault? (.ofText text) (Source.ofText text).ahead with
      | some e => .error e
      | none => .ok (o.reading ((Source.ofText text).ahead.map Tag.entry)) := by
  have hrun := Parser.runs_takeAll (Parser.ofText o text) (Source.ofText text).ahead
  have error : (Parser.ofText o text).run.error = _ := hrun.error_eq_of_closed rfl
  cases fault : o.fault? (.ofText text) (Source.ofText text).ahead with
  | some e => exact ParserStep.drafts_eq_error_iff.mpr (error.trans fault)
  | none =>
    have ok := error.trans fault
    exact ParserStep.drafts_eq_ok_iff.mpr ⟨ok, Parser.finished_run ok⟩

/-- The errors of an outline are those at the orphan among its tags. -/
theorem outline_eq_error_iff {o : OutlineOptions} (able : o.containerClass.isContainer = true)
    (text : String) (e : OutlineError) :
    (outline o text).result = .error e ↔
      ∃ t, o.orphan? (Source.ofText text).ahead = some t ∧
        .orphanChild t.line (Text.trimmed ((Source.ofText text).line t.line)) = e := by
  rw [outline, ParserStep.entities_eq_error_iff, (Parser.error_run able text).1,
    Option.map_eq_some_iff]

/-- An error is settled by the lines up to a tag that opens something. -/
theorem outline_eq_error_iff_of_take {o : OutlineOptions}
    (able : o.containerClass.isContainer = true) {text : String} {n : Nat}
    (opened : ∃ t ∈ Source.tagsAfter 0 ((Text.lines text).take n), o.opens t.entry = true)
    (e : OutlineError) :
    (outline o text).result = .error e ↔
      ∃ (i : Nat) (line : String) (t : Tag),
        o.orphan? (Source.tagsAfter 0 ((Text.lines text).take n)) = some t ∧
        t.line = (i + 1 : Nat) ∧ ((Text.lines text).take n)[i]? = some line ∧
        .orphanChild (i + 1 : Nat) (Text.trimmed line) = e := by
  rw [outline_eq_error_iff able, Source.ahead_eq_append text n, OutlineOptions.orphan?_append opened]
  constructor
  · rintro ⟨t, ht, rfl⟩
    have hmem : t ∈ Source.tagsAfter 0 ((Text.lines text).take n) := by
      obtain ⟨before, after, whole, -, -⟩ := OutlineOptions.orphan?_eq_some_iff.mp ht
      rw [whole]
      simp
    obtain ⟨i, line, hi, -, hline⟩ := Source.exists_line_of_mem_tagsAfter hmem
    rw [Nat.zero_add] at hline
    refine ⟨i, line, t, ht, hline, hi, ?_⟩
    rw [hline, Source.line_ofText_of_take hi]
  · rintro ⟨i, line, t, ht, hline, hi, rfl⟩
    refine ⟨t, ht, ?_⟩
    rw [hline, Source.line_ofText_of_take hi]

/-- A text is no outline if and only if one of its tags opens a child and none of the tags before
it opens a container. The only error is at the first such tag: it gives the number of its line and
the line without its blanks, the line is there and starts with the sigil, and no container is
finished. Whether there is an error, and which, does not depend on the lines behind a tag that opens
something. -/
theorem outline_error_iff_orphan (o : OutlineOptions)
    (able : o.containerClass.isContainer = true) (text : String) :
    ((∃ e, (outline o text).result = .error e) ↔
      ∃ before t after, (Source.ofText text).ahead = before ++ t :: after ∧ o.IsOrphan before t) ∧
    (∀ e, (draft o text).result = .error e ↔ (outline o text).result = .error e) ∧
    (∀ e, (outline o text).result = .error e →
      ∃ (i : Nat) (line : String) (before : List Tag) (t : Tag) (after : List Tag),
        (Source.ofText text).ahead = before ++ t :: after ∧ o.IsOrphan before t ∧
        (∀ u ∈ before, u.key ≠ o.childTag) ∧
        t.line = (i + 1 : Nat) ∧ (Text.lines text)[i]? = some line ∧
        Tag.ofLine? line (i + 1 : Nat) = some t ∧
        (∃ rest, (Text.trimmed line).toList = Tag.sigil :: rest) ∧
        e = .orphanChild (i + 1 : Nat) (Text.trimmed line) ∧
        e.message = "Parser Error at Line " ++ decimal (i + 1 : Nat) ++ "\nLine Content: " ++
          Text.trimmed line ++ "\nError: child declared before any container\n" ∧
        (Parser.ofText o text).run.parser.finished = []) ∧
    ∀ (text' : String) (n : Nat), (Text.lines text').take n = (Text.lines text).take n →
      (∃ t ∈ (Source.ofText text).ahead, t.line ≤ n ∧
        (t.key = o.containerTag ∨ t.key = o.childTag)) →
      ∀ e, (outline o text').result = .error e ↔ (outline o text).result = .error e := by
  refine ⟨?_, ?_, ?_, ?_⟩
  · rw [← OutlineOptions.exists_orphan?_iff]
    constructor
    · rintro ⟨e, he⟩
      obtain ⟨t, ht, -⟩ := (outline_eq_error_iff able text e).mp he
      exact ⟨t, ht⟩
    · rintro ⟨t, ht⟩
      exact ⟨_, (outline_eq_error_iff able text _).mpr ⟨t, ht, rfl⟩⟩
  · intro e
    rw [draft, ParserStep.drafts_eq_error_iff, outline, ParserStep.entities_eq_error_iff]
  · intro e he
    obtain ⟨t, ht, rfl⟩ := (outline_eq_error_iff able text e).mp he
    obtain ⟨before, after, whole, orphan, first⟩ := OutlineOptions.orphan?_eq_some_iff.mp ht
    obtain ⟨i, line, hi, hread, hline⟩ :=
      Source.exists_line_of_mem_ahead (t := t) (by rw [whole]; simp)
    rw [hline] at hread
    obtain ⟨rest, htext⟩ := Tag.exists_trimmed_eq_sigil hread
    refine ⟨i, line, before, t, after, whole, orphan, first, hline, hi, hread, ⟨rest, htext⟩,
      ?_, ?_, ?_⟩
    · rw [hline, Source.line_ofText hi]
    · have shown : Text.trimmed line ≠ "" := by
        intro h
        rw [h] at htext
        cases htext
      rw [hline, Source.line_ofText hi]
      exact OutlineError.message_orphanChild (by omega) shown
    · apply (Parser.error_run able text).2
      rw [(Parser.error_run able text).1, ht]
      simp
  · intro text' n same first e
    have opened : ∃ t ∈ Source.tagsAfter 0 ((Text.lines text).take n), o.opens t.entry = true := by
      obtain ⟨t, ht, hline, hkey⟩ := first
      exact ⟨t, Source.mem_tagsAfter_take ht hline, OutlineOptions.opens_entry_iff.mpr hkey⟩
    have opened' : ∃ t ∈ Source.tagsAfter 0 ((Text.lines text').take n), o.opens t.entry = true := by
      rw [same]
      exact opened
    rw [outline_eq_error_iff_of_take able opened', outline_eq_error_iff_of_take able opened, same]

/-- An input before the only form. What stands on the last line does not matter. -/
theorem outline_error_iff_orphan_late_form :
    (outline (.ofDialect .form) "@type number\n@input units\n@form Late").result =
      .error (.orphanChild 2 "@input units") ∧
    (∃ before t after,
      (Source.ofText "@type number\n@input units\n@form Late").ahead = before ++ t :: after ∧
        (OutlineOptions.ofDialect .form).IsOrphan before t ∧ t.line = 2) ∧
    (outline (.ofDialect .form) "@type number\n@input units\nthe end").result =
      .error (.orphanChild 2 "@input units") := by
  have failed : (outline (.ofDialect .form) "@type number\n@input units\n@form Late").result =
      .error (.orphanChild 2 "@input units") := rfl
  have h := outline_error_iff_orphan (.ofDialect .form) rfl "@type number\n@input units\n@form Late"
  obtain ⟨i, line, before, t, after, whole, orphan, -, number, -, -, -, error, -, -⟩ :=
    h.2.2.1 _ failed
  have two : (2 : Int) = (i + 1 : Nat) := (OutlineError.orphanChild.inj error).1
  have hline : t.line = 2 := number.trans two.symm
  have same : (Text.lines "@type number\n@input units\nthe end").take 2 =
      (Text.lines "@type number\n@input units\n@form Late").take 2 := by decide
  have first : ∃ t ∈ (Source.ofText "@type number\n@input units\n@form Late").ahead,
      t.line ≤ (2 : Nat) ∧ (t.key = "form" ∨ t.key = "input") :=
    ⟨t, by rw [whole]; simp, by omega, Or.inr orphan.child⟩
  exact ⟨failed, ⟨before, t, after, whole, orphan, hline⟩,
    (h.2.2.2 _ 2 same first _).mpr failed⟩

end TagOutline
