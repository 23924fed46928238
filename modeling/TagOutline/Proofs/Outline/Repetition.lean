import Mathlib.Data.List.DropRight
import TagOutline.Proofs.Outline.Concatenation

/-!
# Runs of one parser, one after another

A run that stops at an orphan has read up to it and done nothing else, so the next run goes on with
the tags behind it. As many runs stop as there are orphans. Then nothing stands before the first
container but attributes that belong to nothing, which is also what a text without the lines of the
orphans begins with: the next run gives what that text gives. It leaves the parser at the end of the
text with nothing open, and from there on a run changes nothing.
-/

namespace TagOutline

/-! Tags before and behind the first container. -/

namespace OutlineOptions

/-- The tags before every container. -/
def unopened (o : OutlineOptions) (ts : List Tag) : List Tag :=
  ts.takeWhile fun t => o.role t.key ≠ .opensContainer

/-- The tags from the first container on. -/
def opened (o : OutlineOptions) (ts : List Tag) : List Tag :=
  ts.dropWhile fun t => o.role t.key ≠ .opensContainer

/-- The tags that open a child before every container. -/
def orphans (o : OutlineOptions) (ts : List Tag) : List Tag :=
  (o.unopened ts).filter fun t => o.role t.key = .opensChild

variable {o : OutlineOptions} {s : Source} {t : Tag} {ts us : List Tag}

theorem unopened_append_opened (ts : List Tag) : o.unopened ts ++ o.opened ts = ts :=
  List.takeWhile_append_dropWhile

theorem role_ne_of_mem_unopened (h : t ∈ o.unopened ts) : o.role t.key ≠ .opensContainer := by
  simpa using List.mem_takeWhile_imp h

theorem unopened_append (closed : ∀ u ∈ us, o.role u.key ≠ .opensContainer) (ts : List Tag) :
    o.unopened (us ++ ts) = us ++ o.unopened ts :=
  List.takeWhile_append_of_pos (by simpa using closed)

theorem opened_append (closed : ∀ u ∈ us, o.role u.key ≠ .opensContainer) (ts : List Tag) :
    o.opened (us ++ ts) = o.opened ts :=
  List.dropWhile_append_of_pos (by simpa using closed)

theorem opened_opened (ts : List Tag) : o.opened (o.opened ts) = o.opened ts :=
  List.dropWhile_idempotent _ ts

theorem orphans_opened (ts : List Tag) : o.orphans (o.opened ts) = [] := by
  have whole : o.unopened (o.opened ts) ++ o.opened (o.opened ts) = o.opened ts :=
    unopened_append_opened _
  rw [opened_opened, List.append_left_eq_self] at whole
  rw [orphans, whole, List.filter_nil]

theorem opens_entry_eq_false_iff :
    o.opens t.entry = false ↔ o.role t.key ≠ .opensContainer ∧ o.role t.key ≠ .opensChild := by
  rw [opens, Bool.or_eq_false_iff, decide_eq_false_iff_not, decide_eq_false_iff_not]
  rfl

theorem orphans_append_of_not_opens (closed : ∀ u ∈ us, o.opens u.entry = false) (ts : List Tag) :
    o.orphans (us ++ ts) = o.orphans ts := by
  have role (u : Tag) (hu : u ∈ us) := opens_entry_eq_false_iff.mp (closed u hu)
  have none : us.filter (fun t => o.role t.key = .opensChild) = [] :=
    List.filter_eq_nil_iff.mpr fun u hu => by simpa using (role u hu).2
  rw [orphans, unopened_append fun u hu => (role u hu).1, List.filter_append, none]
  rfl

theorem orphans_cons_of_child (child : o.role t.key = .opensChild) (ts : List Tag) :
    o.orphans (t :: ts) = t :: o.orphans ts := by
  simp [orphans, unopened, child]

theorem orphans_cons_of_container (container : o.role t.key = .opensContainer) (ts : List Tag) :
    o.orphans (t :: ts) = [] := by
  simp [orphans, unopened, container]

theorem orphans_cons_of_not_opens (closed : o.opens t.entry = false) (ts : List Tag) :
    o.orphans (t :: ts) = o.orphans ts := by
  have one : ∀ u ∈ [t], o.opens u.entry = false := by simpa using closed
  exact orphans_append_of_not_opens one ts

/-- The orphans are the tags that can be one where they stand. -/
theorem mem_orphans_iff :
    t ∈ o.orphans ts ↔ ∃ before after, ts = before ++ t :: after ∧ o.IsOrphan before t := by
  rw [orphans, List.mem_filter, decide_eq_true_eq, role_eq_opensChild_iff]
  constructor
  · rintro ⟨member, child, notContainer⟩
    obtain ⟨before, after, cut⟩ := List.mem_iff_append.mp member
    refine ⟨before, after ++ o.opened ts, ?_, child, notContainer, ?_⟩
    · have whole := unopened_append_opened (o := o) ts
      rw [cut, List.append_assoc, List.cons_append] at whole
      exact whole.symm
    · intro u hu container
      have closed : u ∈ o.unopened ts := by simp [cut, hu]
      exact role_ne_of_mem_unopened closed (role_eq_opensContainer_iff.mpr container)
  · rintro ⟨before, after, rfl, orphan⟩
    have closed : ∀ u ∈ before ++ [t], o.role u.key ≠ .opensContainer := by
      intro u hu
      rw [Ne, role_eq_opensContainer_iff]
      rcases List.mem_append.mp hu with hu | hu
      · exact orphan.closed u hu
      · rw [List.mem_singleton.mp hu]
        exact orphan.notContainer
    rw [List.append_cons, unopened_append closed]
    exact ⟨by simp, orphan.child, orphan.notContainer⟩

theorem mem_of_mem_orphans (h : t ∈ o.orphans ts) : t ∈ ts := by
  obtain ⟨before, after, rfl, -⟩ := mem_orphans_iff.mp h
  simp

/-- The orphan that a run stops at is the first of them. -/
theorem orphan?_eq_head? (ts : List Tag) : o.orphan? ts = (o.orphans ts).head? := by
  induction ts with
  | nil => rfl
  | cons t ts ih =>
    cases role : o.role t.key with
    | opensContainer =>
      rw [orphan?_cons_of_container role, orphans_cons_of_container role, List.head?_nil]
    | opensChild => rw [orphan?_cons_of_child role, orphans_cons_of_child role, List.head?_cons]
    | bare =>
      have closed := opens_entry_of_bare role
      rw [orphan?_cons_of_not_opens closed, orphans_cons_of_not_opens closed, ih]
    | «attribute» =>
      have closed := opens_entry_of_attribute role
      rw [orphan?_cons_of_not_opens closed, orphans_cons_of_not_opens closed, ih]

/-- Behind the first orphan stand the other ones and the same containers. -/
theorem exists_behind_orphan (h : o.orphans ts = t :: us) :
    ∃ before after, ts = before ++ t :: after ∧ o.orphan? ts = some t ∧ o.orphans after = us ∧
      o.opened after = o.opened ts := by
  have orphan : o.orphan? ts = some t := by rw [orphan?_eq_head?, h, List.head?_cons]
  obtain ⟨before, after, rfl, isOrphan, first⟩ := orphan?_eq_some_iff.mp orphan
  have child : o.role t.key = .opensChild :=
    role_eq_opensChild_iff.mpr ⟨isOrphan.child, isOrphan.notContainer⟩
  have closed : ∀ u ∈ before, o.opens u.entry = false := by
    intro u hu
    rw [Bool.eq_false_iff, Ne, opens_entry_iff, not_or]
    exact ⟨isOrphan.closed u hu, first u hu⟩
  have role (u : Tag) (hu : u ∈ before) := (opens_entry_eq_false_iff.mp (closed u hu)).1
  rw [orphans_append_of_not_opens closed, orphans_cons_of_child child] at h
  refine ⟨before, after, rfl, orphan, (List.cons.inj h).2, ?_⟩
  have one : ∀ u ∈ [t], o.role u.key ≠ .opensContainer := by simp [child]
  exact ((opened_append role _).trans (opened_append one after)).symm

/-- What stands before the first container is not read. -/
theorem reading_opened (ts : List Tag) :
    o.reading ((o.opened ts).map Tag.entry) = o.reading (ts.map Tag.entry) := by
  have empty : o.reading ((o.unopened ts).map Tag.entry) = [] :=
    reading_entries_eq_nil_iff.mpr fun u hu => role_ne_of_mem_unopened hu
  conv_rhs => rw [← unopened_append_opened (o := o) ts]
  rw [List.map_append, reading_append_of_empty empty]

/-- Without orphans only the class of the containers can be at fault. -/
theorem fault?_of_orphans_nil (none : o.orphans ts = []) (s : Source) :
    o.fault? s ts = o.childless? (o.opened ts) := by
  have noChild : o.childless? (o.unopened ts) = .none := by
    refine childless?_eq_none_iff.mpr ?_
    intro u hu child
    have orphan : u ∈ o.orphans ts := List.mem_filter.mpr ⟨hu, by simpa using child⟩
    rw [none] at orphan
    cases orphan
  have whole := childless?_append_of_none noChild (o.opened ts)
  rw [unopened_append_opened] at whole
  rw [fault?_of_no_orphan (by rw [orphan?_eq_head?, none, List.head?_nil]), whole]

/-- Without the orphans, what opens nothing stands before the same containers. -/
theorem exists_filter_orphans (ordered : ts.Pairwise fun t u => t.line < u.line) :
    ∃ before, (ts.filter fun u => ¬ ∃ t ∈ o.orphans ts, t.line = u.line) = before ++ o.opened ts ∧
      ∀ u ∈ before, o.opens u.entry = false := by
  have later (t : Tag) (ht : t ∈ o.unopened ts) (u : Tag) (hu : u ∈ o.opened ts) :
      t.line < u.line := by
    rw [← unopened_append_opened (o := o) ts] at ordered
    exact (List.pairwise_append.mp ordered).2.2 t ht u hu
  -- no tag from the first container on stands on the line of an orphan
  have kept : (o.opened ts).filter (fun u => ¬ ∃ t ∈ o.orphans ts, t.line = u.line) =
      o.opened ts := by
    rw [List.filter_eq_self]
    intro u hu
    rw [decide_eq_true_eq]
    rintro ⟨t, ht, line⟩
    have less := later t (List.mem_of_mem_filter ht) u hu
    omega
  refine ⟨(o.unopened ts).filter fun u => ¬ ∃ t ∈ o.orphans ts, t.line = u.line, ?_, ?_⟩
  · have whole := congrArg (List.filter fun u => decide (¬ ∃ t ∈ o.orphans ts, t.line = u.line))
      (unopened_append_opened (o := o) ts)
    rw [List.filter_append, kept] at whole
    exact whole.symm
  · intro u hu
    rw [List.mem_filter, decide_eq_true_eq] at hu
    refine opens_entry_eq_false_iff.mpr ⟨role_ne_of_mem_unopened hu.1, ?_⟩
    intro child
    exact hu.2 ⟨u, List.mem_filter.mpr ⟨hu.1, by simpa using child⟩, rfl⟩

end OutlineOptions

/-! Texts with some lines left blank. -/

namespace Source

/-- The lines behind `before` others, with nothing on those of some tags. -/
def blankedLines (ts : List Tag) (before : Nat) (ls : List String) : List String :=
  ls.mapIdx fun i l => if ∃ t ∈ ts, t.line = (before + i + 1 : Nat) then "" else l

/-- A text with nothing on the lines of some tags. -/
def blanked (ts : List Tag) (text : String) : String :=
  "\n".intercalate (blankedLines ts 0 (Text.lines text))

theorem tagsAfter_blankedLines (ts : List Tag) (before : Nat) (ls : List String) :
    tagsAfter before (blankedLines ts before ls) =
      (tagsAfter before ls).filter fun u => ¬ ∃ t ∈ ts, t.line = u.line := by
  induction ls generalizing before with
  | nil => rfl
  | cons l ls ih =>
    have others : blankedLines ts before (l :: ls) =
        (if ∃ t ∈ ts, t.line = (before + 1 : Nat) then "" else l) ::
          blankedLines ts (before + 1) ls := by
      simp only [blankedLines, List.mapIdx_cons, Nat.add_assoc, Nat.add_comm 1]
    rw [others, tagsAfter, ih, tagsAfter, List.filter_append]
    congr 1
    by_cases blank : ∃ t ∈ ts, t.line = (before + 1 : Nat)
    · rw [if_pos blank, List.filter_eq_nil_iff.mpr]
      · rfl
      · intro u hu
        rw [Tag.line_eq (Option.mem_toList.mp hu)]
        simpa using blank
    · rw [if_neg blank, List.filter_eq_self.mpr]
      intro u hu
      rw [Tag.line_eq (Option.mem_toList.mp hu)]
      simpa using blank

/-- The tags of a text that has been left blank on the lines of some of them are the other ones. -/
theorem ahead_blanked (ts : List Tag) (text : String) :
    (ofText (blanked ts text)).ahead =
      (ofText text).ahead.filter fun u => ¬ ∃ t ∈ ts, t.line = u.line := by
  have feedless : ∀ l ∈ blankedLines ts 0 (Text.lines text), '\n' ∉ l.toList := by
    intro l hl
    obtain ⟨i, hi, rfl⟩ := List.mem_mapIdx.mp hl
    split
    · simp
    · exact Text.newline_notMem_of_mem_lines (List.getElem_mem hi)
  rw [blanked, ahead_ofText_intercalate feedless, tagsAfter_blankedLines, ahead_ofText]

end Source

/-- A text without the lines of its orphans is read from its first container on. -/
theorem draft_blanked (o : OutlineOptions) (text : String) :
    (draft o (Source.blanked (o.orphans (Source.ofText text).ahead) text)).result =
      match o.childless? (o.opened (Source.ofText text).ahead) with
      | some e => .error e
      | none => .ok (o.reading ((Source.ofText text).ahead.map Tag.entry)) := by
  obtain ⟨before, cut, closed⟩ := OutlineOptions.exists_filter_orphans (o := o)
    (Source.pairwise_line_tagsAfter 0 (Text.lines text))
  rw [← Source.ahead_ofText, ← Source.ahead_blanked] at cut
  have empty : o.reading (before.map Tag.entry) = [] :=
    OutlineOptions.reading_entries_eq_nil_iff.mpr fun u hu =>
      (OutlineOptions.opens_entry_eq_false_iff.mp (closed u hu)).1
  have fault (s : Source) : o.fault? s (before ++ o.opened (Source.ofText text).ahead) =
      o.childless? (o.opened (Source.ofText text).ahead) := by
    rw [OutlineOptions.fault?_append_of_not_opens closed,
      OutlineOptions.fault?_of_orphans_nil (OutlineOptions.orphans_opened _),
      OutlineOptions.opened_opened]
  have reading : o.reading ((before ++ o.opened (Source.ofText text).ahead).map Tag.entry) =
      o.reading ((Source.ofText text).ahead.map Tag.entry) := by
    rw [List.map_append, OutlineOptions.reading_append_of_empty empty,
      OutlineOptions.reading_opened]
  rw [← cut] at fault reading
  cases childless : o.childless? (o.opened (Source.ofText text).ahead) with
  | some e => exact draft_eq_error_iff.mpr ((fault _).trans childless)
  | none => exact draft_eq_ok_iff.mpr ⟨(fault _).trans childless, reading⟩

namespace Parser

variable {p q : Parser} {t : Tag} {ts us : List Tag}

/-- A parser once it has been run a number of times. -/
def rerun (p : Parser) : Nat → Parser
  | 0 => p
  | n + 1 => (p.rerun n).run.parser

theorem rerun_succ (p : Parser) (n : Nat) : p.rerun (n + 1) = (p.rerun n).run.parser := rfl

/-- A run with nothing open stops at the first orphan and has done nothing but read. -/
theorem run_of_orphans_eq_cons (closed : p.focus = .none)
    (h : p.options.orphans p.source.ahead = t :: us) :
    p.run.error = some (.orphanChild t.line (Text.trimmed (p.source.line t.line))) ∧
      p.run.parser = p.readTo t ∧ p.options.orphans (p.readTo t).source.ahead = us ∧
      p.options.opened (p.readTo t).source.ahead = p.options.opened p.source.ahead := by
  obtain ⟨before, after, cut, orphan, others, opened⟩ := OutlineOptions.exists_behind_orphan h
  have ahead : (p.readTo t).source.ahead = after := Source.ahead_readTo cut
  have run := runs_takeAll p p.source.ahead
  rw [ahead]
  exact ⟨(run.error_eq_of_closed closed).trans (OutlineOptions.fault?_of_orphan orphan _),
    run.parser_eq_of_orphan closed orphan, others, opened⟩

/-- A parser that has run into the first `n` orphans of another one and has otherwise only read. -/
structure Past (p : Parser) (n : Nat) (q : Parser) : Prop where
  same : q = { p with source := { p.source with cursor := q.source.cursor } }
  orphans : p.options.orphans q.source.ahead = (p.options.orphans p.source.ahead).drop n
  opened : p.options.opened q.source.ahead = p.options.opened p.source.ahead
  bound : q.source.cursor ≤ p.source.lines.length

theorem Past.options_eq {n : Nat} (h : Past p n q) : q.options = p.options := by
  rw [h.same]

theorem Past.focus_eq {n : Nat} (h : Past p n q) : q.focus = p.focus := by
  rw [h.same]

theorem Past.finished_eq {n : Nat} (h : Past p n q) : q.finished = p.finished := by
  rw [h.same]

theorem Past.lines_eq {n : Nat} (h : Past p n q) : q.source.lines = p.source.lines := by
  rw [h.same]

/-- One more run ends at one more orphan. -/
theorem Past.run {n : Nat} (h : Past p n q) (closed : p.focus = .none)
    (next : (p.options.orphans p.source.ahead)[n]? = some t) :
    q.run.error = some (.orphanChild t.line (Text.trimmed (p.source.line t.line))) ∧
      q.run.parser = p.readTo t ∧ Past p (n + 1) q.run.parser := by
  obtain ⟨bound, here⟩ := List.getElem?_eq_some_iff.mp next
  have line : t.line ≤ p.source.lines.length :=
    Source.line_le_of_mem_ahead (OutlineOptions.mem_of_mem_orphans (List.mem_of_getElem? next))
  have cursor : t.line.toNat ≤ p.source.lines.length := by omega
  have lines : q.source.line t.line = p.source.line t.line := by
    rw [Source.line, h.lines_eq, Source.line]
  have left : q.options.orphans q.source.ahead =
      t :: (p.options.orphans p.source.ahead).drop (n + 1) := by
    rw [h.options_eq, h.orphans, List.drop_eq_getElem_cons bound, here]
  obtain ⟨error, parser, others, opened⟩ :=
    run_of_orphans_eq_cons (h.focus_eq.trans closed) left
  have read : q.readTo t = p.readTo t := by
    rw [h.same]
    rfl
  rw [read] at parser others opened
  rw [h.options_eq] at others opened
  rw [lines] at error
  rw [parser]
  exact ⟨error, rfl, rfl, others, opened.trans h.opened, cursor⟩

theorem past_rerun (closed : p.focus = .none) (start : p.source.cursor ≤ p.source.lines.length)
    {n : Nat} (bound : n ≤ (p.options.orphans p.source.ahead).length) : Past p n (p.rerun n) := by
  induction n with
  | zero => exact ⟨rfl, rfl, rfl, start⟩
  | succ n ih =>
    exact ((ih (by omega)).run closed (List.getElem?_eq_getElem (by omega))).2.2

theorem Takes.source_eq {s : ParserStep} (h : Takes p t s) :
    s.parser.source = p.source.readTo t := by
  cases h <;> rfl

/-- A run without an error ends behind the last line, with the whole prospect finished. -/
theorem Runs.parser_eq_of_ok {r : ParserStep} (h : Runs p ts r) (ok : r.error = none)
    (cursor : p.source.cursor ≤ p.source.lines.length)
    (lines : ∀ t ∈ ts, t.line ≤ p.source.lines.length) :
    r.parser = ⟨p.options, ⟨p.source.lines, p.source.lines.length⟩, p.prospect ts, .none⟩ := by
  induction h with
  | finish p =>
    simp [Parser.finish, close, Source.finished, prospect, Focus.completed_nil,
      Nat.max_eq_right cursor]
  | stop ts first failed =>
    rw [ok] at failed
    cases failed
  | @go p t s r ts first taken others ih =>
    have source : s.parser.source = p.source.readTo t := first.source_eq
    have line : t.line ≤ p.source.lines.length := lines t (by simp)
    have cursor' : t.line.toNat ≤ p.source.lines.length := by omega
    have rest := ih ok (by rw [source]; exact cursor')
      (by rw [source]; exact fun u hu => lines u (List.mem_cons_of_mem t hu))
    rw [first.options_eq, first.prospect_eq taken, source] at rest
    exact rest

/-- A run from behind the last line changes nothing. -/
theorem run_of_read (o : OutlineOptions) (lines : List String) (cs : List ContainerDraft) :
    run ⟨o, ⟨lines, lines.length⟩, cs, .none⟩ = ⟨⟨o, ⟨lines, lines.length⟩, cs, .none⟩, [], none⟩ := by
  have ahead : Source.ahead ⟨lines, lines.length⟩ = [] := by
    rw [Source.ahead, Source.unread, List.drop_length]
    rfl
  rw [run, ahead, takeAll]
  simp [finish, close, Focus.container?, Source.finished]

/-- Past all the orphans of a text, a run gives what the text gives without their lines. -/
theorem Past.drafts_result {o : OutlineOptions} {text : String} {n : Nat}
    (h : Past (ofText o text) n q) (all : (o.orphans (Source.ofText text).ahead).length ≤ n) :
    q.run.drafts.result =
      (draft o (Source.blanked (o.orphans (Source.ofText text).ahead) text)).result := by
  have options : q.options = o := h.options_eq
  have closed : q.focus = .none := h.focus_eq
  have none : o.orphans q.source.ahead = [] := h.orphans.trans (List.drop_eq_nil_of_le all)
  have opened : o.opened q.source.ahead = o.opened (Source.ofText text).ahead := h.opened
  have run := runs_takeAll q q.source.ahead
  have error : q.run.error = o.childless? (o.opened (Source.ofText text).ahead) := by
    rw [← opened, ← OutlineOptions.fault?_of_orphans_nil none q.source, ← options]
    exact run.error_eq_of_closed closed
  have prospect : q.prospect q.source.ahead =
      o.reading ((Source.ofText text).ahead.map Tag.entry) := by
    rw [Parser.prospect, closed, h.finished_eq, options, ← OutlineOptions.reading_opened, opened,
      OutlineOptions.reading_opened]
    rfl
  rw [draft_blanked]
  cases childless : o.childless? (o.opened (Source.ofText text).ahead) with
  | some e => exact ParserStep.drafts_eq_error_iff.mpr (error.trans childless)
  | none =>
    have ok := error.trans childless
    exact ParserStep.drafts_eq_ok_iff.mpr ⟨ok, (run.finished_eq ok).trans prospect⟩

/-- A run that gives something ends behind the last line. -/
theorem Past.parser_eq_of_ok {o : OutlineOptions} {text : String} {n : Nat}
    {cs : List ContainerDraft} (h : Past (ofText o text) n q)
    (ok : q.run.drafts.result = .ok cs) :
    q.run.parser = ⟨o, ⟨Text.lines text, (Text.lines text).length⟩, cs, .none⟩ := by
  obtain ⟨noError, rfl⟩ := ParserStep.drafts_eq_ok_iff.mp ok
  have bound : q.source.cursor ≤ q.source.lines.length := h.lines_eq ▸ h.bound
  have run := runs_takeAll q q.source.ahead
  have last := run.parser_eq_of_ok noError bound fun t ht => Source.line_le_of_mem_ahead ht
  rw [← run.finished_eq noError, h.options_eq, h.lines_eq] at last
  exact last

/-- From a run that gives something on, every run ends behind the last line and gives the same. -/
theorem settled {o : OutlineOptions} {text : String} {n : Nat} {cs : List ContainerDraft}
    (past : Past (ofText o text) n ((ofText o text).rerun n))
    (ok : ((ofText o text).rerun n).run.drafts.result = .ok cs) {k : Nat} (later : n ≤ k) :
    ((ofText o text).rerun k).run.drafts.result = .ok cs ∧
      (ofText o text).rerun (k + 1) =
        ⟨o, ⟨Text.lines text, (Text.lines text).length⟩, cs, .none⟩ := by
  induction k, later using Nat.le_induction with
  | base => exact ⟨ok, past.parser_eq_of_ok ok⟩
  | succ k later ih =>
    have again := run_of_read o (Text.lines text) cs
    rw [rerun_succ _ (k + 1), ih.2, again]
    exact ⟨rfl, rfl⟩

end Parser

/-- What a parser over a text gives that is run again and again, where some tags are those that open
a child before every container. -/
structure Resumes (o : OutlineOptions) (text : String) (ts : List Tag) : Prop where
  /-- Nothing else is among the tags, and they come in the order of their lines. -/
  orphans : (∀ t, t ∈ ts ↔ ∃ before after,
      (Source.ofText text).ahead = before ++ t :: after ∧ o.IsOrphan before t) ∧
    ts.Pairwise (fun t u => t.line < u.line)
  /-- Each of them ends a run with the error at its line. All that has changed by then is the number
  of lines that have been read. -/
  stopped : ∀ (i : Nat) (t : Tag), ts[i]? = some t → ∃ (n : Nat) (line : String),
    t.line = (n + 1 : Nat) ∧ (Text.lines text)[n]? = some line ∧
    ((Parser.ofText o text).rerun i).run.entities.result =
      .error (.orphanChild (n + 1 : Nat) (Text.trimmed line)) ∧
    (Parser.ofText o text).rerun (i + 1) = ⟨o, ⟨Text.lines text, n + 1⟩, [], .none⟩
  /-- The run behind the last of them gives what the text gives without their lines. -/
  resumed : ((Parser.ofText o text).rerun ts.length).run.entities.result =
    (outline o (Source.blanked ts text)).result
  /-- If the class of the containers takes children, that is an outline, every later run gives the
  same one, and the parser stays where it is: behind the last line, with each container finished
  once and nothing open. -/
  settled : o.containerClass.isContainer = true → ∃ cs : List ContainerDraft,
    (outline o (Source.blanked ts text)).result = .ok (cs.map (ContainerDraft.toEntity o)) ∧
    ∀ k, ts.length ≤ k →
      ((Parser.ofText o text).rerun k).run.entities.result =
        .ok (cs.map (ContainerDraft.toEntity o)) ∧
      (Parser.ofText o text).rerun (k + 1) =
        ⟨o, ⟨Text.lines text, (Text.lines text).length⟩, cs, .none⟩

/-- The law of a parser that is run again and again. As many runs stop as there are tags that open a
child before every container, one at each of them, and nothing but the number of lines that have
been read tells the parser from a new one. The next run gives what the text gives without the lines
of these tags, and every run behind it gives that too and leaves the parser as it is. -/
theorem run_resumes (o : OutlineOptions) (text : String) :
    Resumes o text (o.orphans (Source.ofText text).ahead) := by
  have past {n : Nat} (bound : n ≤ (o.orphans (Source.ofText text).ahead).length) :
      Parser.Past (.ofText o text) n ((Parser.ofText o text).rerun n) :=
    Parser.past_rerun rfl (Nat.zero_le _) bound
  have options (k : Nat) : ((Parser.ofText o text).rerun k).run.parser.options = o := by
    induction k with
    | zero => exact (Parser.runs_takeAll _ _).options_eq
    | succ k ih => exact (Parser.runs_takeAll _ _).options_eq.trans ih
  have entities (k : Nat) : ((Parser.ofText o text).rerun k).run.entities.result =
      ((Parser.ofText o text).rerun k).run.drafts.result.map
        (List.map (ContainerDraft.toEntity o)) := by
    rw [ParserStep.entities_result, options]
  have resumed := (past (Nat.le_refl _)).drafts_result (Nat.le_refl _)
  refine ⟨⟨fun t => OutlineOptions.mem_orphans_iff, ?_⟩, ?_, ?_, ?_⟩
  · have ordered := Source.pairwise_line_tagsAfter 0 (Text.lines text)
    have sub : (o.orphans (Source.ofText text).ahead).Sublist (Source.ofText text).ahead :=
      List.filter_sublist.trans (List.takeWhile_sublist _)
    exact ordered.sublist sub
  · intro i t ht
    obtain ⟨bound, -⟩ := List.getElem?_eq_some_iff.mp ht
    obtain ⟨n, line, hline, -, number⟩ := Source.exists_line_of_mem_ahead
      (OutlineOptions.mem_of_mem_orphans (List.mem_of_getElem? ht))
    obtain ⟨error, parser, -⟩ := (past (Nat.le_of_lt bound)).run rfl ht
    refine ⟨n, line, number, hline, ?_, ?_⟩
    · rw [ParserStep.entities_eq_error_iff, error, number]
      congr
      exact Source.line_ofText hline
    · have cursor : t.line.toNat = n + 1 := by omega
      rw [Parser.rerun_succ, parser, Parser.readTo, Source.readTo, cursor]
      rfl
  · rw [entities, resumed, outline_result]
  · intro able
    have ok := draft_blanked o text
    rw [OutlineOptions.childless?_of_able able] at ok
    refine ⟨_, by rw [outline_result, ok]; rfl, ?_⟩
    intro k later
    obtain ⟨same, parser⟩ := Parser.settled (past (Nat.le_refl _)) (resumed.trans ok) later
    exact ⟨by rw [entities, same]; rfl, parser⟩

/-- Two inputs before a form. The third run passes over the attribute between them and gives the
form with its one input, and so do all runs behind it. -/
theorem run_resumes_late_form :
    ((Parser.ofText (.ofDialect .form)
        "@input a\n@k 1\n @input b\n@form F\n@input c").rerun 0).run.entities.result =
      .error (.orphanChild 1 "@input a") ∧
    ((Parser.ofText (.ofDialect .form)
        "@input a\n@k 1\n @input b\n@form F\n@input c").rerun 1).run.entities.result =
      .error (.orphanChild 3 "@input b") ∧
    (outline (.ofDialect .form) "\n@k 1\n\n@form F\n@input c").result =
      .ok [⟨.form, .text "F", [], [⟨.input, .text "c", [], []⟩]⟩] ∧
    ∀ k, 2 ≤ k → ((Parser.ofText (.ofDialect .form)
        "@input a\n@k 1\n @input b\n@form F\n@input c").rerun k).run.entities.result =
      .ok [⟨.form, .text "F", [], [⟨.input, .text "c", [], []⟩]⟩] := by
  have law := run_resumes (.ofDialect .form) "@input a\n@k 1\n @input b\n@form F\n@input c"
  obtain ⟨cs, whole, later⟩ := law.settled rfl
  have blank : (outline (.ofDialect .form) "\n@k 1\n\n@form F\n@input c").result =
      .ok [⟨.form, .text "F", [], [⟨.input, .text "c", [], []⟩]⟩] := rfl
  have same := Except.ok.inj (whole.symm.trans blank)
  obtain ⟨n, line, number, found, first, -⟩ := law.stopped 0 ⟨"input", "a", 1⟩ rfl
  obtain rfl : n = 0 := by
    have one : (1 : Int) = (n + 1 : Nat) := number
    omega
  obtain rfl := Option.some.inj found
  obtain ⟨n, line, number, found, second, -⟩ := law.stopped 1 ⟨"input", "b", 3⟩ rfl
  obtain rfl : n = 2 := by
    have three : (3 : Int) = (n + 1 : Nat) := number
    omega
  obtain rfl := Option.some.inj found
  exact ⟨first, second, blank, fun k hk => by rw [← same]; exact (later k hk).1⟩

end TagOutline
