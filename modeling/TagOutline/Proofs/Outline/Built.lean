import TagOutline.Proofs.Outline.BuilderFrame

/-!
# What a builder has built

The entities that a builder has in its store are those of the parser after the same tags, at every
step and at the end of the text. With the invariant of the builder this says how its phase, the open
container and the target of attributes go together in all states that a text can lead to.
-/

namespace TagOutline

namespace Focus

def phase : Focus → Phase
  | .none => .topLevel
  | .container _ => .container
  | .child _ _ => .child

theorem exists_of_phase_container {f : Focus} (h : f.phase = .container) :
    ∃ c, f = .container c := by
  cases f with
  | container c => exact ⟨c, rfl⟩
  | none => cases h
  | child c d => cases h

theorem exists_of_phase_child {f : Focus} (h : f.phase = .child) : ∃ c d, f = .child c d := by
  cases f with
  | child c d => exact ⟨c, d, rfl⟩
  | none => cases h
  | container c => cases h

theorem phase_write (f : Focus) (w : Write) : (f.write w).phase = f.phase := by
  cases f <;> rfl

end Focus

namespace Parser

/-- The parser that tags lead to. -/
def after (p : Parser) (ts : List Tag) : Parser :=
  ts.foldl (fun p t => (p.step t).parser) p

theorem after_concat (p : Parser) (ts : List Tag) (t : Tag) :
    p.after (ts ++ [t]) = ((p.after ts).step t).parser := by
  simp [after]

/-- A run without an error takes all its tags and then the end of the text. -/
theorem parser_takeAll {p : Parser} {ts : List Tag} (ok : (p.takeAll ts).error = none) :
    (p.takeAll ts).parser = (p.after ts).finish := by
  induction ts generalizing p with
  | nil => rfl
  | cons t ts ih =>
    rw [takeAll] at ok ⊢
    cases first : (p.step t).error with
    | some e =>
      rw [first] at ok
      cases ok
    | none =>
      rw [first] at ok
      exact ih ok

end Parser

namespace Builder

/-- What the store of a builder holds is what a parser holds. -/
structure Shows (b : Builder) (p : Parser) : Prop where
  options : b.options = p.options
  finished : b.containers.map b.session.entityAt = p.entities
  current : b.current.map b.session.entityAt =
    p.focus.container?.map (ContainerDraft.toEntity p.options)
  phase : b.phase = p.focus.phase

variable {b b' : Builder} {p : Parser} {t : Tag} {r : Ref}

theorem Evolves.map_finished (h : b.Evolves b') :
    b.containers.map b'.session.entityAt = b.containers.map b.session.entityAt :=
  List.map_congr_left h.finished

/-- The entity of a container, put together from the store. -/
theorem IsSeparate.entityAt_eq (h : b.IsSeparate) (root : r ∈ b.roots) :
    b.session.entityAt r = (b.session.objectAt r).toEntity
      ((b.session.childrenAt r).map fun d => (b.session.objectAt d).toEntity []) :=
  Session.entityAt_eq (h.made r root) fun _ hd => h.leaf hd

/-- The open container of a builder is that of the parser. -/
theorem Shows.exists_container (h : b.Shows p) (current : b.current = some r) :
    ∃ c, p.focus.container? = some c ∧ c.toEntity p.options = b.session.entityAt r := by
  have shown := h.current
  rw [current, Option.map_some] at shown
  exact Option.map_eq_some_iff.mp shown.symm

theorem Shows.focus_eq_none (h : b.Shows p) (current : b.current = none) : p.focus = .none := by
  have shown := h.current
  rw [current, Option.map_none] at shown
  exact Focus.container?_eq_none_iff.mp (Option.map_eq_none_iff.mp shown.symm)

/-- A container is the same when another object is put in the store. -/
theorem IsSeparate.entityAt_insert (h : b.IsSeparate) (root : r ∈ b.roots) (o : StoredEntity) :
    (b.session.insert o).1.entityAt r = b.session.entityAt r := by
  have inside := h.made r root
  apply Session.entityAt_congr inside _ fun d hd => h.leaf hd
  · intro i hi
    apply Session.objectAt_insert_of_lt
    rcases List.mem_cons.mp hi with rfl | hi
    · exact inside
    · exact (h.child r i hi).2
  · rw [Session.length_insert]
    exact Nat.lt_succ_of_lt inside

/-- A container with a child opened in it. -/
theorem IsSeparate.entityAt_insertChild (h : b.IsSeparate) (root : r ∈ b.roots) {o : StoredEntity}
    (leaf : o.children = []) :
    (b.session.insertChild r o).entityAt r =
      { b.session.entityAt r with
        children := (b.session.entityAt r).children ++ [o.toEntity []] } := by
  have inside := h.made r root
  have children := Session.childrenAt_insertChild leaf inside
  have grown : IsSeparate { b with session := b.session.insertChild r o } :=
    h.addChild root rfl children (by simp)
  have object := Session.objectAt_insertChild inside o inside
  have siblings : ∀ d ∈ b.session.childrenAt r,
      ((b.session.insertChild r o).objectAt d).toEntity [] =
        (b.session.objectAt d).toEntity [] := by
    intro d hd
    obtain ⟨notRoot, made⟩ := h.child r d hd
    have apart : d ≠ r := fun same => notRoot (same ▸ root)
    rw [Session.objectAt_insertChild inside o made, if_neg apart]
  rw [if_pos rfl] at object
  rw [grown.entityAt_eq root, h.entityAt_eq root]
  simp only [children r, if_pos, object, List.map_append, List.map_congr_left siblings,
    List.map_singleton, Session.objectAt_insertChild_length inside]
  rfl

/-- A container with an attribute written to it. -/
theorem IsSeparate.entityAt_written (h : b.IsSeparate) (root : r ∈ b.roots) (w : Write) :
    (b.session.update r (·.write w)).entityAt r =
      (b.session.entityAt r).addAttribute (.text w.1) (.text w.2) := by
  have below : ∀ d ∈ b.session.childrenAt r,
      ((b.session.update r (·.write w)).objectAt d).toEntity [] =
        (b.session.objectAt d).toEntity [] := by
    intro d hd
    have apart : d ≠ r := fun same => (h.child r d hd).1 (same ▸ root)
    rw [Session.objectAt_update_of_ne apart]
  rw [(h.write r w).entityAt_eq root, h.entityAt_eq root]
  simp only [Session.childrenAt_write, Session.objectAt_update_self (h.made r root),
    List.map_congr_left below]
  rfl

/-- A container with an attribute written to its last child. -/
theorem IsSeparate.entityAt_written_child (h : b.IsSeparate) (root : r ∈ b.roots) {d : Ref}
    {ds : List Ref} (last : b.session.childrenAt r = ds ++ [d]) (w : Write) :
    (b.session.update d (·.write w)).entityAt r =
      { b.session.entityAt r with
        children := ds.map (fun i => (b.session.objectAt i).toEntity []) ++
          [((b.session.objectAt d).toEntity []).addAttribute (.text w.1) (.text w.2)] } := by
  obtain ⟨notRoot, made⟩ := h.child r d (by simp [last])
  have apart : r ≠ d := fun same => notRoot (same ▸ root)
  have once := h.childOnce r
  rw [last, List.nodup_append] at once
  have before : ∀ i ∈ ds, ((b.session.update d (·.write w)).objectAt i).toEntity [] =
      (b.session.objectAt i).toEntity [] := by
    intro i hi
    rw [Session.objectAt_update_of_ne (once.2.2 i hi d (by simp))]
  rw [(h.write d w).entityAt_eq root, h.entityAt_eq root]
  simp only [Session.childrenAt_write, last, Session.objectAt_update_of_ne apart,
    Session.objectAt_update_self made, List.map_append, List.map_congr_left before,
    List.map_singleton]
  rfl

/-- All containers of a builder are those of the parser. -/
theorem Shows.map_roots (h : b.Shows p) :
    b.roots.map b.session.entityAt =
      (p.finished ++ p.focus.container?.toList).map (ContainerDraft.toEntity p.options) := by
  rw [roots, List.map_append, List.map_append, h.finished, ← Option.toList_map, ← Option.toList_map,
    h.current]
  rfl

theorem Shows.cls_eq (h : b.Shows p) (separate : b.IsSeparate) (current : b.current = some r) :
    (b.session.objectAt r).cls = p.options.containerClass := by
  obtain ⟨c, -, shown⟩ := h.exists_container current
  rw [separate.entityAt_eq (mem_roots_of_current current)] at shown
  exact congrArg Entity.cls shown.symm

theorem Shows.focus_ne_none (h : b.Shows p) (opened : b.phase ≠ .topLevel) : p.focus ≠ .none := by
  intro closed
  rw [h.phase, closed] at opened
  exact opened rfl

/-- Attributes are written to the same entity. -/
theorem Shows.written (h : b.Shows p) (shape : b.Shape) (separate : b.IsSeparate)
    (target : b.target = some r) (w : Write) :
    b.current.map (b.session.update r (·.write w)).entityAt =
      (p.focus.write w).container?.map (ContainerDraft.toEntity p.options) := by
  cases shape with
  | topLevel phase current htarget containers =>
    rw [htarget] at target
    cases target
  | @container q phase current htarget fresh =>
    rw [htarget, Option.some.injEq] at target
    subst target
    obtain ⟨c, hc, shown⟩ := h.exists_container current
    obtain ⟨e, hfocus⟩ := Focus.exists_of_phase_container (h.phase.symm.trans phase)
    rw [hfocus] at hc
    obtain rfl : e = c := Option.some.inj hc
    rw [current, hfocus, Option.map_some,
      separate.entityAt_written (mem_roots_of_current current), ← shown]
    exact congrArg some (ContainerDraft.toEntity_write p.options e w).symm
  | @child q d ds phase current htarget children =>
    rw [htarget, Option.some.injEq] at target
    subst target
    obtain ⟨c, hc, shown⟩ := h.exists_container current
    obtain ⟨e, f, hfocus⟩ := Focus.exists_of_phase_child (h.phase.symm.trans phase)
    rw [hfocus] at hc
    obtain rfl : e.addChild f = c := Option.some.inj hc
    have parts := congrArg Entity.children shown
    rw [separate.entityAt_eq (mem_roots_of_current current), children, List.map_append,
      ContainerDraft.toEntity_addChild] at parts
    obtain ⟨before, ends⟩ := List.append_inj' parts rfl
    have last : f.toEntity p.options.childClass = (b.session.objectAt d).toEntity [] :=
      List.singleton_inj.mp ends
    rw [current, hfocus, Option.map_some,
      separate.entityAt_written_child (mem_roots_of_current current) children, ← shown, ← before,
      ← last]
    refine congrArg some ?_
    rw [← ChildDraft.toEntity_write]
    exact (ContainerDraft.toEntity_addChild p.options e (f.write w)).symm

theorem Takes.shows (h : b.Takes t b') (shape : b.Shape) (separate : b.IsSeparate)
    (shown : b.Shows p) : b'.Shows (p.step t).parser := by
  have evolves := h.evolves shape separate
  have same := shown.options
  cases h with
  | container role =>
    rw [← (Parser.Takes.container (same ▸ role)).eq_step]
    refine ⟨same, ?_, ?_, rfl⟩
    · have kept : b.roots.map (b.session.insert (.new b.options.containerClass t.value)).1.entityAt =
          b.roots.map b.session.entityAt :=
        List.map_congr_left fun r hr => separate.entityAt_insert hr _
      exact kept.trans shown.map_roots
    · have fresh : (b.session.insert (.new b.options.containerClass t.value)).1.childrenAt
          b.session.objects.length = [] := by
        rw [Session.childrenAt_insert rfl, Session.childrenAt_of_le (Nat.le_refl _)]
      have made := Session.entityAt_eq
        (s := (b.session.insert (.new b.options.containerClass t.value)).1)
        (r := b.session.objects.length) (by simp) (by simp [fresh])
      rw [Option.map_some, made, fresh, Session.objectAt_insert_self, same]
      rfl
  | @child r role opened able =>
    have root := mem_roots_of_current opened
    obtain ⟨c, hc, shownHere⟩ := shown.exists_container opened
    rw [Session.objectAt_insert_of_lt (separate.made r root), shown.cls_eq separate opened] at able
    rw [← (Parser.Takes.child (same ▸ role) hc able).eq_step]
    refine ⟨same, evolves.map_finished.trans shown.finished, ?_, rfl⟩
    have shownThere : (b.session.insertChild r (.new b.options.childClass t.value)).entityAt r =
        (c.addChild (.new t.value)).toEntity p.options := by
      rw [separate.entityAt_insertChild root rfl, ← shownHere, ContainerDraft.toEntity_addChild,
        same]
      rfl
    rw [opened]
    exact congrArg some shownThere
  | @childless r role opened unable =>
    have root := mem_roots_of_current opened
    rw [Session.objectAt_insert_of_lt (separate.made r root), shown.cls_eq separate opened] at unable
    obtain ⟨c, hc, -⟩ := shown.exists_container opened
    have focused : p.focus ≠ .none := by
      intro closed
      rw [Focus.container?_eq_none_iff.mpr closed] at hc
      cases hc
    rw [← (Parser.Takes.childless (same ▸ role) focused unable).eq_step]
    have current : b.current.map
        (b.session.insert (.new b.options.childClass t.value)).1.entityAt =
          b.current.map b.session.entityAt := by
      rw [opened, Option.map_some, Option.map_some, separate.entityAt_insert root]
    exact ⟨same, evolves.map_finished.trans shown.finished, current.trans shown.current, shown.phase⟩
  | orphan role closed =>
    rw [← (Parser.Takes.orphan (same ▸ role) (shown.focus_eq_none closed)).eq_step]
    exact ⟨same, shown.finished, shown.current, shown.phase⟩
  | bare role =>
    rw [← (Parser.Takes.bare (same ▸ role)).eq_step]
    exact ⟨same, shown.finished, shown.current, shown.phase⟩
  | stray role closed =>
    have coherent := shape.isCoherent separate
    have current : b.current = none := by
      rcases closed with phase | target
      · exact coherent.topLevel_iff_current.mp phase
      · exact coherent.topLevel_iff_current.mp (coherent.topLevel_iff_target.mpr target)
    rw [← (Parser.Takes.stray (same ▸ role) (shown.focus_eq_none current)).eq_step]
    exact ⟨same, shown.finished, shown.current, shown.phase⟩
  | @written r role opened target =>
    rw [← (Parser.Takes.written (same ▸ role) (shown.focus_ne_none opened)).eq_step]
    exact ⟨same, evolves.map_finished.trans shown.finished, shown.written shape separate target _,
      shown.phase.trans (p.focus.phase_write _).symm⟩

/-- The end of the text shows in the store too. -/
theorem Shows.close (h : b.Shows p) : b.close.Shows p.finish :=
  ⟨h.options, h.map_roots, rfl, rfl⟩

theorem shows_after (o : OutlineOptions) (text : String) (ts : List Tag) :
    (after o ts).Shows ((Parser.ofText o text).after ts) := by
  induction ts using List.reverseRecOn with
  | nil => exact ⟨rfl, rfl, rfl, rfl⟩
  | append_singleton ts t ih =>
    obtain ⟨shape, separate⟩ := sound_after o ts
    rw [after_concat, Parser.after_concat]
    exact (takes_take (after o ts) t).shows shape separate ih

end Builder

/-- The phase of a parser, the open container and the target of its attributes, after any number of
tags. They agree with each other; the containers, finished and open, are as many as the tags that
opened one; and the next step keeps all finished containers, all names, and the attributes of all
but the target, and puts what is new behind what is there. All of this is in a store, which shows
what the parser holds. At the end of the text nothing is open, and there is a finished container for
each tag that opens one, in their order. -/
theorem outline_built (o : OutlineOptions) (text : String) :
    let tags := (Source.ofText text).ahead
    (∀ n,
      let b := Builder.after o (tags.take n)
      b.IsCoherent ∧
      b.containers.length + (if b.current.isSome then 1 else 0) =
        (tags.take n).countP (fun t => o.role t.key = .opensContainer) ∧
      b.Evolves (Builder.after o (tags.take (n + 1))) ∧
      b.Shows ((Parser.ofText o text).after (tags.take n))) ∧
    ((Parser.ofText o text).run.error = none →
      let b := (Builder.after o tags).close
      b.phase = .topLevel ∧ b.current = none ∧ b.target = none ∧
      b.containers.map (fun r => (b.session.objectAt r).name) =
        (tags.filter fun t => o.role t.key = .opensContainer).map (fun t => .text t.value) ∧
      b.Shows (Parser.ofText o text).run.parser) := by
  intro tags
  refine ⟨?_, ?_⟩
  · intro n b
    obtain ⟨shape, separate⟩ := Builder.sound_after o (tags.take n)
    refine ⟨shape.isCoherent separate, ?_, ?_, Builder.shows_after o text _⟩
    · have names := congrArg List.length (Builder.rootNames_after o (tags.take n))
      rw [Builder.rootNames, List.length_map, List.length_map, ← List.countP_eq_length_filter,
        Builder.roots, List.length_append] at names
      rw [← names]
      cases b.current with
      | none => rfl
      | some r => rfl
    · rw [List.take_add_one]
      cases tags[n]? with
      | none =>
        rw [Option.toList_none, List.append_nil]
        exact .refl b
      | some t => exact Builder.evolves_after o (tags.take n) t
  · intro ok b
    have last : (Parser.ofText o text).run.parser = ((Parser.ofText o text).after tags).finish :=
      Parser.parser_takeAll ok
    refine ⟨rfl, rfl, rfl, Builder.rootNames_after o tags, ?_⟩
    rw [last]
    exact (Builder.shows_after o text tags).close

/-- A stray attribute, a form with an input, and a form. -/
theorem outline_built_two_forms :
    (Parser.ofText (.ofDialect .form) "@k lost\n@form A\n@input a\n@t x\n@form B").run.error = none ∧
    let b := (Builder.after (.ofDialect .form)
      (Source.ofText "@k lost\n@form A\n@input a\n@t x\n@form B").ahead).close
    b.containers.map (fun r => (b.session.objectAt r).name) = [.text "A", .text "B"] := by
  have ok : (Parser.ofText (.ofDialect .form)
      "@k lost\n@form A\n@input a\n@t x\n@form B").run.error = none := rfl
  obtain ⟨-, -, -, names, -⟩ := (outline_built (.ofDialect .form) _).2 ok
  exact ⟨ok, names⟩

end TagOutline
