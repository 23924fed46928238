import TagOutline.Proofs.Outline.Builder

/-!
# What a builder keeps

A step changes the open container or what attributes are written to, and no other object. Objects
keep their classes and names; what is new comes behind what is there; and a finished container stays
as it is, with all its children.
-/

namespace TagOutline.Builder

/-- What a step may change: attributes of the target, and nothing else in what is there already,
but for what it puts behind it. -/
structure Evolves (b b' : Builder) : Prop where
  kept : b.session.objects.length ≤ b'.session.objects.length
  named : ∀ r < b.session.objects.length,
    (b'.session.objectAt r).cls = (b.session.objectAt r).cls ∧
      (b'.session.objectAt r).name = (b.session.objectAt r).name
  attributes : ∀ r < b.session.objects.length, b.target ≠ some r →
    (b'.session.objectAt r).attributes = (b.session.objectAt r).attributes
  children : ∀ r, b.session.childrenAt r <+: b'.session.childrenAt r
  containers : b.containers <+: b'.containers
  finished : ∀ r ∈ b.containers, b'.session.entityAt r = b.session.entityAt r

variable {b b' : Builder} {t : Tag} {r d : Ref}

theorem IsSeparate.leaf (h : b.IsSeparate) (hd : d ∈ b.session.childrenAt r) :
    b.session.childrenAt d = [] := by
  cases below : b.session.childrenAt d with
  | nil => rfl
  | cons e es =>
    have root : d ∈ b.roots := h.parent d e (by rw [below]; simp)
    exact absurd root (h.child r d hd).1

/-- Attributes are written to the open container or to a child of it. -/
theorem Shape.target_cases (h : b.Shape) {i : Ref} (target : b.target = some i) :
    ∃ r, b.current = some r ∧ (i = r ∨ i ∈ b.session.childrenAt r) := by
  cases h with
  | topLevel _ _ htarget _ =>
    rw [htarget] at target
    cases target
  | container _ current htarget _ =>
    rw [htarget, Option.some.injEq] at target
    exact ⟨_, current, Or.inl target.symm⟩
  | child _ current htarget children =>
    rw [htarget, Option.some.injEq] at target
    exact ⟨_, current, Or.inr (by simp [children, target])⟩

/-- Neither a finished container nor a child of it is open, and no attributes are written to
either. -/
theorem IsSeparate.finished_apart (h : b.IsSeparate) (shape : b.Shape) (finished : r ∈ b.containers)
    {i : Ref} (hi : i ∈ r :: b.session.childrenAt r) :
    b.current ≠ some i ∧ b.target ≠ some i := by
  have root : r ∈ b.roots := List.mem_append_left _ finished
  have closed : b.current ≠ some r := by
    intro current
    have once := h.once
    rw [roots, List.nodup_append] at once
    exact once.2.2 r finished r (by simp [current]) rfl
  constructor
  · intro current
    rcases List.mem_cons.mp hi with rfl | hi
    · exact closed current
    · exact (h.child r i hi).1 (mem_roots_of_current current)
  · intro target
    obtain ⟨q, current, which⟩ := shape.target_cases target
    have other : q ≠ r := fun same => closed (same ▸ current)
    have opened : q ∈ b.roots := mem_roots_of_current current
    rcases List.mem_cons.mp hi with rfl | hi
    · rcases which with same | below
      · exact other same.symm
      · exact (h.child q i below).1 root
    · rcases which with rfl | below
      · exact (h.child r i hi).1 opened
      · exact other (h.oneParent q r i below hi)

/-- A step changes no object but the open container and the target. -/
theorem Takes.objectAt_eq (h : b.Takes t b') {i : Ref} (hi : i < b.session.objects.length)
    (separate : b.IsSeparate) (closed : b.current ≠ some i) (aside : b.target ≠ some i) :
    b'.session.objectAt i = b.session.objectAt i := by
  cases h with
  | container role => exact Session.objectAt_insert_of_lt hi _
  | @child r role opened able =>
    have apart : i ≠ r := fun same => closed (same ▸ opened)
    have inside := separate.made r (mem_roots_of_current opened)
    exact (Session.objectAt_insertChild inside _ hi).trans (if_neg apart)
  | childless role opened unable => exact Session.objectAt_insert_of_lt hi _
  | orphan role current => rfl
  | bare role => rfl
  | stray role current => rfl
  | @written r role opened target =>
    have apart : i ≠ r := fun same => aside (same ▸ target)
    exact Session.objectAt_update_of_ne apart _

theorem Takes.length_le (h : b.Takes t b') :
    b.session.objects.length ≤ b'.session.objects.length := by
  cases h <;> simp

theorem Takes.containers_prefix (h : b.Takes t b') : b.containers <+: b'.containers := by
  cases h with
  | container role => exact List.prefix_append _ _
  | child role opened able => exact List.prefix_rfl
  | childless role opened unable => exact List.prefix_rfl
  | orphan role current => exact List.prefix_rfl
  | bare role => exact List.prefix_rfl
  | stray role current => exact List.prefix_rfl
  | written role opened target => exact List.prefix_rfl

theorem Takes.childrenAt_prefix (h : b.Takes t b') (separate : b.IsSeparate) (i : Ref) :
    b.session.childrenAt i <+: b'.session.childrenAt i := by
  cases h with
  | container role =>
    exact ⟨[], (List.append_nil _).trans (Session.childrenAt_insert rfl _ i).symm⟩
  | @child r role opened able =>
    have inside := separate.made r (mem_roots_of_current opened)
    rw [Session.childrenAt_insertChild rfl inside]
    split
    next same =>
      rw [same]
      exact List.prefix_append _ _
    next => exact List.prefix_rfl
  | childless role opened unable =>
    exact ⟨[], (List.append_nil _).trans (Session.childrenAt_insert rfl _ i).symm⟩
  | orphan role current => exact List.prefix_rfl
  | bare role => exact List.prefix_rfl
  | stray role current => exact List.prefix_rfl
  | written role opened target =>
    exact ⟨[], (List.append_nil _).trans (Session.childrenAt_write _ _ _ i).symm⟩

/-- An object keeps its class and its name, and its attributes if they are not written to. -/
theorem Takes.object_kept (h : b.Takes t b') (separate : b.IsSeparate) {i : Ref}
    (hi : i < b.session.objects.length) :
    (b'.session.objectAt i).cls = (b.session.objectAt i).cls ∧
      (b'.session.objectAt i).name = (b.session.objectAt i).name ∧
      (b.target ≠ some i →
        (b'.session.objectAt i).attributes = (b.session.objectAt i).attributes) := by
  cases h with
  | container role => simp [Session.objectAt_insert_of_lt hi]
  | @child r role opened able =>
    have inside := separate.made r (mem_roots_of_current opened)
    rw [Session.objectAt_insertChild inside _ hi]
    split
    next same =>
      subst same
      exact ⟨rfl, rfl, fun _ => rfl⟩
    next => exact ⟨rfl, rfl, fun _ => rfl⟩
  | childless role opened unable => simp [Session.objectAt_insert_of_lt hi]
  | orphan role current => exact ⟨rfl, rfl, fun _ => rfl⟩
  | bare role => exact ⟨rfl, rfl, fun _ => rfl⟩
  | stray role current => exact ⟨rfl, rfl, fun _ => rfl⟩
  | @written r role opened target =>
    by_cases same : i = r
    · subst same
      rw [Session.objectAt_update_self hi]
      exact ⟨rfl, rfl, fun aside => absurd target aside⟩
    · rw [Session.objectAt_update_of_ne same]
      exact ⟨rfl, rfl, fun _ => rfl⟩

theorem Takes.evolves (h : b.Takes t b') (shape : b.Shape) (separate : b.IsSeparate) :
    b.Evolves b' where
  kept := h.length_le
  named r hr := ⟨(h.object_kept separate hr).1, (h.object_kept separate hr).2.1⟩
  attributes r hr := (h.object_kept separate hr).2.2
  children := h.childrenAt_prefix separate
  containers := h.containers_prefix
  finished r hr := by
    have inside := separate.made r (List.mem_append_left _ hr)
    apply Session.entityAt_congr inside (Nat.lt_of_lt_of_le inside h.length_le)
      fun d hd => separate.leaf hd
    intro i hi
    obtain ⟨closed, aside⟩ := separate.finished_apart shape hr hi
    have made : i < b.session.objects.length := by
      rcases List.mem_cons.mp hi with rfl | hi
      · exact inside
      · exact (separate.child r i hi).2
    exact h.objectAt_eq made separate closed aside

theorem Evolves.refl (b : Builder) : b.Evolves b :=
  ⟨Nat.le_refl _, fun _ _ => ⟨rfl, rfl⟩, fun _ _ _ => rfl, fun _ => List.prefix_rfl, List.prefix_rfl,
    fun _ _ => rfl⟩

/-! Any number of steps. -/

variable (o : OutlineOptions) (ts : List Tag)

theorem evolves_after (t : Tag) : (after o ts).Evolves (after o (ts ++ [t])) := by
  obtain ⟨shape, separate⟩ := sound_after o ts
  rw [after_concat]
  exact (takes_take (after o ts) t).evolves shape separate

/-- The names of all containers, the open one last. -/
def rootNames (b : Builder) : List Value :=
  b.roots.map fun r => (b.session.objectAt r).name

/-- A step names a container that it opens, and keeps the names of the others. -/
theorem Takes.rootNames_eq (h : b.Takes t b') (separate : b.IsSeparate) :
    b'.rootNames =
      b.rootNames ++ if b.options.role t.key = .opensContainer then [.text t.value] else [] := by
  have kept : b.roots.map (fun r => (b'.session.objectAt r).name) = b.rootNames :=
    List.map_congr_left fun r hr => (h.object_kept separate (separate.made r hr)).2.1
  cases h with
  | container role =>
    rw [if_pos role, ← kept]
    show (b.roots ++ [b.session.objects.length]).map _ = _
    rw [List.map_append, List.map_singleton, Session.objectAt_insert_self]
    rfl
  | child role opened able =>
    rw [role, if_neg nofun, List.append_nil]
    exact kept
  | childless role opened unable =>
    rw [role, if_neg nofun, List.append_nil]
    exact kept
  | orphan role current => simp [role]
  | bare role => simp [role]
  | stray role current => simp [role]
  | written role opened target =>
    rw [role, if_neg nofun, List.append_nil]
    exact kept

/-- The containers are those of the tags that open one, in their order. -/
theorem rootNames_after :
    (after o ts).rootNames =
      (ts.filter fun t => o.role t.key = .opensContainer).map fun t => .text t.value := by
  induction ts using List.reverseRecOn with
  | nil => rfl
  | append_singleton ts t ih =>
    rw [after_concat, (takes_take (after o ts) t).rootNames_eq (sound_after o ts).2, ih,
      options_after, List.filter_append, List.map_append]
    by_cases role : o.role t.key = .opensContainer
    · simp [role]
    · simp [role]

end TagOutline.Builder
