import TagOutline.Proofs.Outline.Correspondence
import TagOutline.Proofs.Outline.Orphan

/-!
# Outlines of texts put together

Two texts with a line feed between them have the tags of both, those of the second one moved behind
the lines of the first. The outline of the whole follows from this, for it is the reading of the
tags unless there is a fault among them. A fault in the first text is one of the whole. A tag that
opens a container ends all that is open, so what is read from there on is what is read of the second
text alone. And a first text in which nothing is opened leaves no trace but its lines.
-/

namespace TagOutline

/-- The same tag a number of lines further down. -/
def Tag.moved (n : Nat) (t : Tag) : Tag :=
  { t with line := t.line + n }

/-- The same error a number of lines further down. -/
def OutlineError.moved (n : Nat) : OutlineError → OutlineError
  | .orphanChild line content => .orphanChild (line + n) content
  | .childless missing => .childless missing

namespace Source

/-- The number of lines that a text takes up before another one. -/
def span (text : String) : Nat :=
  Text.lineFeeds text.toList + 1

variable {s u : String} {t : Tag}

theorem length_pieces (text : String) :
    ((text.toList.splitOn '\n').map String.ofList).length = span text := by
  rw [List.length_map, Text.length_splitOn]
  rfl

theorem tagsAfter_pieces (before : Nat) (text : String) :
    tagsAfter before ((text.toList.splitOn '\n').map String.ofList) =
      tagsAfter before (Text.lines text) := by
  rcases Text.lines_eq_or text with same | ⟨none, empty⟩
  · rw [same]
  · rw [none, empty]
    rfl

/-- The tags of two texts, one behind the other. -/
theorem ahead_append (s u : String) :
    (ofText (s ++ "\n" ++ u)).ahead =
      (ofText s).ahead ++ (ofText u).ahead.map (Tag.moved (span s)) := by
  rw [ahead_ofText, Text.lines_append, tagsAfter_append, length_pieces, Nat.zero_add,
    tagsAfter_pieces, tagsAfter_shifted 0 (span s), tagsAfter_pieces]
  simp only [Int.natCast_zero, Int.sub_zero]
  rfl

/-- A tag of the first text is found on its line. -/
theorem line_append_left (h : t ∈ (ofText s).ahead) :
    (ofText (s ++ "\n" ++ u)).line t.line = (ofText s).line t.line := by
  obtain ⟨i, l, hi, -, hline⟩ := exists_line_of_mem_ahead h
  have whole : (Text.lines (s ++ "\n" ++ u))[i]? = some l := by
    rw [Text.lines_append]
    rcases Text.lines_eq_or s with same | ⟨none, -⟩
    · rw [← same, List.getElem?_append_left (List.getElem?_eq_some_iff.mp hi).1, hi]
    · rw [none] at hi
      cases hi
  rw [hline, line_ofText whole, line_ofText hi]

/-- A tag of the second text is found on its line behind those of the first. -/
theorem line_append_right (h : t ∈ (ofText u).ahead) :
    (ofText (s ++ "\n" ++ u)).line (t.line + span s) = (ofText u).line t.line := by
  obtain ⟨i, l, hi, -, hline⟩ := exists_line_of_mem_ahead h
  have whole : (Text.lines (s ++ "\n" ++ u))[span s + i]? = some l := by
    rw [Text.lines_append, ← length_pieces, List.getElem?_append_right (Nat.le_add_right _ i),
      Nat.add_sub_cancel_left]
    rcases Text.lines_eq_or u with same | ⟨none, -⟩
    · rw [← same, hi]
    · rw [none] at hi
      cases hi
  have place : t.line + span s = (span s + i + 1 : Nat) := by omega
  rw [place, line_ofText whole, hline, line_ofText hi]

end Source

namespace OutlineOptions

variable {o : OutlineOptions} {e : OutlineError} {s s' : Source} {t : Tag} {ts us : List Tag}
  {es fs : List Write}

/-! Readings of entries behind others. -/

/-- Attributes end where no more follow. -/
theorem writesIn_append_of_closed (closed : o.writesIn fs = []) (es : List Write) :
    o.writesIn (es ++ fs) = o.writesIn es := by
  induction es with
  | nil => exact closed
  | cons e es ih =>
    rw [List.cons_append]
    by_cases opens : o.opens e = true
    · rw [writesIn_cons_of_opens opens, writesIn_cons_of_opens opens]
    · cases role : o.role e.1 with
      | bare => rw [writesIn_cons_of_bare role, writesIn_cons_of_bare role, ih]
      | «attribute» => rw [writesIn_cons_of_attribute role, writesIn_cons_of_attribute role, ih]
      | opensContainer => simp [OutlineOptions.opens, role] at opens
      | opensChild => simp [OutlineOptions.opens, role] at opens

theorem childrenIn_append_of_closed (closed : o.writesIn fs = []) (last : o.childrenIn fs = [])
    (es : List Write) : o.childrenIn (es ++ fs) = o.childrenIn es := by
  induction es with
  | nil => exact last
  | cons e es ih =>
    rw [List.cons_append]
    by_cases container : o.role e.1 = .opensContainer
    · rw [childrenIn_cons_of_container container, childrenIn_cons_of_container container]
    · by_cases child : o.role e.1 = .opensChild
      · rw [childrenIn_cons_of_child child, childrenIn_cons_of_child child, ih,
          writesIn_append_of_closed closed]
      · have opens : o.opens e = false := by simp [OutlineOptions.opens, container, child]
        rw [childrenIn_cons_of_not_opens opens, childrenIn_cons_of_not_opens opens, ih]

/-- Entries that begin with a container are read by themselves. -/
theorem reading_append_of_closed (closed : o.writesIn fs = []) (last : o.childrenIn fs = [])
    (es : List Write) : o.reading (es ++ fs) = o.reading es ++ o.reading fs := by
  induction es with
  | nil => rfl
  | cons e es ih =>
    rw [List.cons_append]
    by_cases container : o.role e.1 = .opensContainer
    · rw [reading_cons_of_container container, reading_cons_of_container container, ih,
        writesIn_append_of_closed closed, childrenIn_append_of_closed closed last, List.cons_append]
    · rw [reading_cons_of_ne container, reading_cons_of_ne container, ih]

theorem reading_eq_nil_iff : o.reading es = [] ↔ ∀ e ∈ es, o.role e.1 ≠ .opensContainer := by
  induction es with
  | nil => simp
  | cons e es ih =>
    by_cases container : o.role e.1 = .opensContainer
    · simp [reading_cons_of_container container, container]
    · simp [reading_cons_of_ne container, container, ih]

theorem reading_entries_eq_nil_iff :
    o.reading (ts.map Tag.entry) = [] ↔ ∀ t ∈ ts, o.role t.key ≠ .opensContainer := by
  rw [reading_eq_nil_iff]
  exact List.forall_mem_map

/-- Entries that open no container are passed over. -/
theorem reading_append_of_empty (empty : o.reading es = []) (fs : List Write) :
    o.reading (es ++ fs) = o.reading fs := by
  rw [reading_eq_nil_iff] at empty
  induction es with
  | nil => rfl
  | cons e es ih =>
    rw [List.cons_append, reading_cons_of_ne (empty e (by simp))]
    exact ih fun f hf => empty f (List.mem_cons_of_mem e hf)

/-! Tags that begin with a container. -/

/-- The first tag that is more than a sigil opens a container, if there is one. -/
def BeginsContainer (o : OutlineOptions) (ts : List Tag) : Prop :=
  ∀ t, ts.find? (fun t => o.role t.key ≠ .bare) = some t → t.key = o.containerTag

theorem BeginsContainer.cons_cases (h : o.BeginsContainer (t :: ts)) :
    o.role t.key = .opensContainer ∨ o.role t.key = .bare ∧ o.BeginsContainer ts := by
  by_cases bare : o.role t.key = .bare
  · refine Or.inr ⟨bare, fun u hu => h u ?_⟩
    simpa [bare] using hu
  · exact Or.inl (role_eq_opensContainer_iff.mpr (h t (by simp [bare])))

/-- Such tags add nothing to what is open, and there is no orphan among them. -/
theorem BeginsContainer.ends (h : o.BeginsContainer ts) :
    o.writesIn (ts.map Tag.entry) = [] ∧ o.childrenIn (ts.map Tag.entry) = [] ∧
      o.orphan? ts = none := by
  induction ts with
  | nil => exact ⟨rfl, rfl, rfl⟩
  | cons t ts ih =>
    rw [List.map_cons]
    rcases h.cons_cases with container | ⟨bare, others⟩
    · have opens : o.opens t.entry = true := by simp [OutlineOptions.opens, Tag.entry, container]
      exact ⟨writesIn_cons_of_opens opens _, childrenIn_cons_of_container container _,
        orphan?_cons_of_container container ts⟩
    · have opens := opens_entry_of_bare bare
      rw [writesIn_cons_of_bare bare, childrenIn_cons_of_not_opens opens,
        orphan?_cons_of_not_opens opens]
      exact ih others

/-! Tags that have moved. -/

theorem map_entry_moved (n : Nat) (ts : List Tag) :
    (ts.map (Tag.moved n)).map Tag.entry = ts.map Tag.entry := by
  rw [List.map_map]
  rfl

theorem BeginsContainer.moved (h : o.BeginsContainer ts) (n : Nat) :
    o.BeginsContainer (ts.map (Tag.moved n)) := by
  intro t ht
  rw [List.find?_map, Option.map_eq_some_iff] at ht
  obtain ⟨u, hu, rfl⟩ := ht
  exact h u hu

theorem orphan?_moved (n : Nat) (ts : List Tag) :
    o.orphan? (ts.map (Tag.moved n)) = (o.orphan? ts).map (Tag.moved n) := by
  rw [orphan?, orphan?, List.find?_map, Option.filter_map]
  rfl

theorem childless?_moved (n : Nat) (ts : List Tag) :
    o.childless? (ts.map (Tag.moved n)) = o.childless? ts := by
  simp [childless?, Tag.moved]

/-- A fault moves with its line. -/
theorem fault?_moved {n : Nat} (same : ∀ t ∈ ts, s'.line (t.line + n) = s.line t.line) :
    o.fault? s' (ts.map (Tag.moved n)) = (o.fault? s ts).map (OutlineError.moved n) := by
  have orphans := orphan?_moved (o := o) n ts
  cases orphan : o.orphan? ts with
  | some t =>
    obtain ⟨before, after, whole, -⟩ := orphan?_eq_some_iff.mp orphan
    have found : s'.line (t.line + n) = s.line t.line := same t (by simp [whole])
    rw [orphan, Option.map_some] at orphans
    rw [fault?_of_orphan orphans, fault?_of_orphan orphan, Option.map_some]
    simp only [Tag.moved, OutlineError.moved, found]
  | none =>
    rw [orphan, Option.map_none] at orphans
    rw [fault?_of_no_orphan orphans, fault?_of_no_orphan orphan, childless?_moved]
    unfold childless?
    split
    · rfl
    · rfl

/-! Faults among tags behind others. -/

theorem childless?_append_of_none (able : o.childless? ts = none) (us : List Tag) :
    o.childless? (ts ++ us) = o.childless? us := by
  by_cases unable : o.containerClass.isContainer = true
  · rw [childless?_of_able unable, childless?_of_able unable]
  · have noChild : ∀ t ∈ ts, o.role t.key ≠ .opensChild := fun t ht child =>
      unable (childless?_eq_none_iff.mp able t ht child)
    induction ts with
    | nil => rfl
    | cons t ts ih =>
      rw [childless?_cons_of_ne (noChild t (by simp))] at able
      rw [List.cons_append, childless?_cons_of_ne (noChild t (by simp))]
      exact ih able fun u hu => noChild u (List.mem_cons_of_mem t hu)

theorem childless?_append_of_some (unable : o.childless? ts = some e) (us : List Tag) :
    o.childless? (ts ++ us) = some e := by
  rw [childless?, Option.ite_none_right_eq_some] at unable
  obtain ⟨⟨unable, t, ht, child⟩, error⟩ := unable
  rw [childless?, if_pos ⟨unable, t, List.mem_append_left us ht, child⟩, error]

/-- A fault is one too where more tags follow. -/
theorem fault?_append_of_some (same : ∀ t ∈ ts, s'.line t.line = s.line t.line)
    (faulty : o.fault? s ts = some e) (us : List Tag) : o.fault? s' (ts ++ us) = some e := by
  cases orphan : o.orphan? ts with
  | some t =>
    obtain ⟨before, after, whole, isOrphan, -⟩ := orphan?_eq_some_iff.mp orphan
    have member : t ∈ ts := by simp [whole]
    have opened : ∃ t ∈ ts, o.opens t.entry = true :=
      ⟨t, member, opens_entry_iff.mpr (Or.inr isOrphan.child)⟩
    rw [fault?_of_orphan orphan] at faulty
    rw [fault?_of_orphan ((orphan?_append opened us).trans orphan), same t member, faulty]
  | none =>
    rw [fault?_of_no_orphan orphan] at faulty
    have child : ∃ t ∈ ts, o.role t.key = .opensChild := by
      rw [childless?, Option.ite_none_right_eq_some] at faulty
      exact faulty.1.2
    have opened : ∃ t ∈ ts, o.opens t.entry = true := by
      obtain ⟨t, ht, child⟩ := child
      exact ⟨t, ht, by simp [OutlineOptions.opens, Tag.entry, child]⟩
    rw [fault?_of_no_orphan ((orphan?_append opened us).trans orphan)]
    exact childless?_append_of_some faulty us

/-- Tags that open nothing have no fault and cover none. -/
theorem fault?_append_of_not_opens (closed : ∀ t ∈ ts, o.opens t.entry = false) (us : List Tag) :
    o.fault? s (ts ++ us) = o.fault? s us := by
  induction ts with
  | nil => rfl
  | cons t ts ih =>
    rw [List.cons_append, fault?_cons_of_not_opens (closed t (by simp))]
    exact ih fun u hu => closed u (List.mem_cons_of_mem t hu)

/-- Behind tags without a fault, those that begin with a container have no orphan. -/
theorem fault?_append_of_begins (ok : o.fault? s ts = none) (begins : o.BeginsContainer us) :
    o.fault? s' (ts ++ us) = o.childless? us := by
  obtain ⟨noOrphan, able⟩ := fault?_eq_none_iff.mp ok
  by_cases opened : ∃ t ∈ ts, o.opens t.entry = true
  · rw [fault?_of_no_orphan ((orphan?_append opened us).trans noOrphan),
      childless?_append_of_none able]
  · have closed : ∀ t ∈ ts, o.opens t.entry = false := by simpa using opened
    rw [fault?_append_of_not_opens closed, fault?_of_no_orphan begins.ends.2.2]

/-- Where nothing is read and no fault is found, nothing is opened. -/
theorem opens_eq_false_of_empty (ok : o.fault? s ts = none)
    (empty : o.reading (ts.map Tag.entry) = []) : ∀ t ∈ ts, o.opens t.entry = false := by
  have noContainer : ∀ t ∈ ts, t.key ≠ o.containerTag := by
    intro t ht container
    exact reading_entries_eq_nil_iff.mp empty t ht (role_eq_opensContainer_iff.mpr container)
  intro t ht
  rw [Bool.eq_false_iff, Ne, opens_entry_iff]
  rintro (container | child)
  · exact noContainer t ht container
  · obtain ⟨before, after, whole⟩ := List.mem_iff_append.mp ht
    have orphan : o.IsOrphan before t :=
      ⟨child, noContainer t ht, fun u hu => noContainer u (by simp [whole, hu])⟩
    obtain ⟨u, hu⟩ := exists_orphan?_iff.mpr ⟨before, t, after, whole, orphan⟩
    rw [(fault?_eq_none_iff.mp ok).1] at hu
    cases hu

end OutlineOptions

/-- How a text that is put together of two is read, by what is read of each. -/
structure Concatenates {α : Type} (o : OutlineOptions)
    (read : String → Except OutlineError (List α)) : Prop where
  /-- The error of the first text is that of the whole. -/
  failed : ∀ s e, read s = .error e → ∀ u, read (s ++ "\n" ++ u) = .error e
  /-- Where the second text begins with a container or opens nothing, each is read by itself. Then
  the second one can be read, if the class of the containers takes children. -/
  begins : ∀ s xs, read s = .ok xs → ∀ u, o.BeginsContainer (Source.ofText u).ahead →
    read (s ++ "\n" ++ u) = (read u).map (xs ++ ·) ∧
      (o.containerClass.isContainer = true → ∃ ys, read u = .ok ys)
  /-- Behind a text without containers the other is read as it is alone, and an error in it is told
  as many lines further down as the first text takes up. -/
  empty : ∀ s, read s = .ok [] → ∀ u,
    read (s ++ "\n" ++ u) = (read u).mapError (OutlineError.moved (Source.span s))

section Drafts

variable {o : OutlineOptions} {s u : String} {e : OutlineError} {cs : List ContainerDraft}

theorem draft_eq_error_iff : (draft o s).result = .error e ↔
    o.fault? (.ofText s) (Source.ofText s).ahead = some e := by
  rw [draft_result]
  cases o.fault? (.ofText s) (Source.ofText s).ahead <;> simp

theorem draft_eq_ok_iff : (draft o s).result = .ok cs ↔
    o.fault? (.ofText s) (Source.ofText s).ahead = none ∧
      o.reading ((Source.ofText s).ahead.map Tag.entry) = cs := by
  rw [draft_result]
  cases o.fault? (.ofText s) (Source.ofText s).ahead <;> simp

theorem draft_append_of_error (failed : (draft o s).result = .error e) (u : String) :
    (draft o (s ++ "\n" ++ u)).result = .error e := by
  rw [draft_eq_error_iff] at failed ⊢
  rw [Source.ahead_append]
  exact OutlineOptions.fault?_append_of_some (fun t ht => Source.line_append_left ht) failed _

theorem draft_append_of_begins (found : (draft o s).result = .ok cs)
    (begins : o.BeginsContainer (Source.ofText u).ahead) :
    (draft o (s ++ "\n" ++ u)).result = (draft o u).result.map (cs ++ ·) := by
  obtain ⟨ok, rfl⟩ := draft_eq_ok_iff.mp found
  have behind := begins.moved (Source.span s)
  obtain ⟨closed, last, -⟩ := begins.ends
  have fault : o.fault? (.ofText (s ++ "\n" ++ u)) (Source.ofText (s ++ "\n" ++ u)).ahead =
      o.fault? (.ofText u) (Source.ofText u).ahead := by
    rw [Source.ahead_append, OutlineOptions.fault?_append_of_begins ok behind,
      OutlineOptions.childless?_moved, OutlineOptions.fault?_of_no_orphan begins.ends.2.2]
  have reading : o.reading ((Source.ofText (s ++ "\n" ++ u)).ahead.map Tag.entry) =
      o.reading ((Source.ofText s).ahead.map Tag.entry) ++
        o.reading ((Source.ofText u).ahead.map Tag.entry) := by
    rw [Source.ahead_append, List.map_append, OutlineOptions.map_entry_moved,
      OutlineOptions.reading_append_of_closed closed last]
  rw [draft_result, draft_result, fault, reading]
  cases o.fault? (.ofText u) (Source.ofText u).ahead with
  | some e => rfl
  | none => rfl

/-- A text that begins with a container is an outline, if the class of the containers takes
children. -/
theorem exists_draft_of_begins (able : o.containerClass.isContainer = true)
    (begins : o.BeginsContainer (Source.ofText u).ahead) : ∃ cs, (draft o u).result = .ok cs := by
  refine ⟨_, draft_eq_ok_iff.mpr ⟨?_, rfl⟩⟩
  rw [OutlineOptions.fault?_of_no_orphan begins.ends.2.2, OutlineOptions.childless?_of_able able]

theorem draft_append_of_empty (found : (draft o s).result = .ok []) (u : String) :
    (draft o (s ++ "\n" ++ u)).result =
      (draft o u).result.mapError (OutlineError.moved (Source.span s)) := by
  obtain ⟨ok, empty⟩ := draft_eq_ok_iff.mp found
  have closed := OutlineOptions.opens_eq_false_of_empty ok empty
  have fault : o.fault? (.ofText (s ++ "\n" ++ u)) (Source.ofText (s ++ "\n" ++ u)).ahead =
      (o.fault? (.ofText u) (Source.ofText u).ahead).map (OutlineError.moved (Source.span s)) := by
    rw [Source.ahead_append, OutlineOptions.fault?_append_of_not_opens closed,
      OutlineOptions.fault?_moved fun t ht => Source.line_append_right ht]
  have reading : o.reading ((Source.ofText (s ++ "\n" ++ u)).ahead.map Tag.entry) =
      o.reading ((Source.ofText u).ahead.map Tag.entry) := by
    rw [Source.ahead_append, List.map_append, OutlineOptions.map_entry_moved,
      OutlineOptions.reading_append_of_empty empty]
  rw [draft_result, draft_result, fault, reading]
  cases o.fault? (.ofText u) (Source.ofText u).ahead with
  | some e => rfl
  | none => rfl

end Drafts

/-- What is made of containers one by one is put together as they are. -/
theorem Concatenates.map {α β : Type} {o : OutlineOptions}
    {read : String → Except OutlineError (List α)} (h : Concatenates o read) (f : α → β) :
    Concatenates o fun s => (read s).map (List.map f) where
  failed s e failed u := by
    cases first : read s with
    | error e' =>
      rw [first] at failed
      obtain rfl : e' = e := Except.error.inj failed
      rw [h.failed s e' first u]
      rfl
    | ok xs =>
      rw [first] at failed
      cases failed
  begins s ys found u begins := by
    cases first : read s with
    | error e =>
      rw [first] at found
      cases found
    | ok xs =>
      rw [first] at found
      obtain rfl : xs.map f = ys := Except.ok.inj found
      obtain ⟨whole, able⟩ := h.begins s xs first u begins
      refine ⟨?_, ?_⟩
      · rw [whole]
        cases read u with
        | error e => rfl
        | ok zs => exact congrArg Except.ok List.map_append
      · intro isContainer
        obtain ⟨zs, second⟩ := able isContainer
        exact ⟨zs.map f, by rw [second]; rfl⟩
  empty s found u := by
    cases first : read s with
    | error e =>
      rw [first] at found
      cases found
    | ok xs =>
      rw [first] at found
      obtain rfl : xs = [] := List.map_eq_nil_iff.mp (Except.ok.inj found)
      rw [h.empty s first u]
      cases read u with
      | error e => rfl
      | ok zs => rfl

/-- The law of texts that are put together with a line feed between them, for drafts and for
outlines. An error in the first text is that of the whole. Where the second text begins with a
container, or opens nothing, the outline is that of the first with that of the second behind it, so
nothing of the first text has a part in what the second gives. And behind a text without containers
the second one is read as it is alone, but for the lines that its errors tell. -/
theorem outline_concatenates (o : OutlineOptions) :
    Concatenates o (fun s => (draft o s).result) ∧
      Concatenates o (fun s => (outline o s).result) := by
  have drafts : Concatenates o fun s => (draft o s).result :=
    { failed := fun _ _ failed u => draft_append_of_error failed u
      begins := fun _ _ found _ begins =>
        ⟨draft_append_of_begins found begins, fun able => exists_draft_of_begins able begins⟩
      empty := fun _ found u => draft_append_of_empty found u }
  have entities : (fun s => (outline o s).result) =
      fun s => (draft o s).result.map (List.map (ContainerDraft.toEntity o)) :=
    funext fun s => outline_result o s
  rw [entities]
  exact ⟨drafts, drafts.map _⟩

/-- A form with an input, and a sigil and another form behind it. Nothing is opened before an
orphan, which is told two lines further down, and what follows an orphan is not read. -/
theorem outline_concatenates_two_forms :
    (outline (.ofDialect .form) ("@form A\n@input b" ++ "\n" ++ "@\n@form B\n@k 1")).result =
        .ok [⟨.form, .text "A", [], [⟨.input, .text "b", [], []⟩]⟩,
          ⟨.form, .text "B", [(.text "k", .text "1")], []⟩] ∧
      (outline (.ofDialect .form) ("@k lost\n" ++ "\n" ++ "@input b")).result =
        .error (.orphanChild 3 "@input b") ∧
      (outline (.ofDialect .form) ("@input b" ++ "\n" ++ "@form A")).result =
        .error (.orphanChild 1 "@input b") := by
  have laws := (outline_concatenates (.ofDialect .form)).2
  have begins : (OutlineOptions.ofDialect .form).BeginsContainer
      (Source.ofText "@\n@form B\n@k 1").ahead := by
    intro t ht
    obtain rfl := Option.some.inj ht
    rfl
  obtain ⟨whole, -⟩ := laws.begins "@form A\n@input b"
    [⟨.form, .text "A", [], [⟨.input, .text "b", [], []⟩]⟩] rfl _ begins
  exact ⟨whole, laws.empty "@k lost\n" rfl "@input b",
    laws.failed "@input b" (.orphanChild 1 "@input b") rfl "@form A"⟩

end TagOutline
