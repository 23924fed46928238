import TagOutline.Proofs.Entity.Heap

/-!
# Sessions and what is shared in them

What a step of a session changes, and what it leaves as it is then and later on, as long as no
object becomes its own descendant. A child is shared by all that it was added to. An entity that was
made out of a record or a text shares nothing with any other, until a child is added that links the
two.
-/

namespace TagOutline.Session

/-- An object that a step made is apart from all that other identifiers name. As long as no child is
added that links it to the object of another identifier, a step on the one is not seen in the
other. -/
structure IsIsolated (s' : Session) (id : String) (r : Ref) (later : List SessionStep) : Prop where
  named : s'.ref? id = some r
  apart : ∀ other q, other ≠ id → s'.ref? other = some q → s'.AreApart r q
  kept : ∀ l u m, later = l ++ u :: m → u.id ≠ id →
    (∀ q, (s'.after l).ref? u.id = some q → s'.NeverLinked r q l) →
      ((s'.after l).step u).1.entityAt r = (s'.after l).entityAt r
  keeps : ∀ l u m, later = l ++ u :: m → u.id = id → (s'.after l).ref? id = some r →
    ∀ other q, other ≠ id → (s'.after l).ref? other = some q → s'.NeverLinked r q l →
      ((s'.after l).step u).1.entity? other = (s'.after l).entity? other

/-- A child was added to a container. It is seen there as it is at any later time, and it links two
objects if the one reaches the container and the child has something in common with the other. -/
structure IsAdopted (s : Session) (id child : String) (p c : Ref) (later : List SessionStep) :
    Prop where
  seen : ∀ l m, later = l ++ m →
    (((s.step (.adopt id child)).1.after l).entityAt p).children[(s.childrenAt p).length]? =
      some (((s.step (.adopt id child)).1.after l).entityAt c)
  links : ∀ r o, s.AreApart r o → (s.Links r o (.adopt id child) ↔
    s.Reaches r p ∧ ¬ s.AreApart c o ∨ s.Reaches o p ∧ ¬ s.AreApart c r)

/-- What a step of a session changes. -/
structure IsFramed (s : Session) (t : SessionStep) (later : List SessionStep) : Prop where
  /-- Only what reaches the object that is written to is seen to change. -/
  writes : t.writes = true → ∀ id, (s.step t).1.entity? id ≠ s.entity? id →
    ∃ r o, s.ref? id = some r ∧ s.ref? t.id = some o ∧ s.Reaches r o
  adopts : ∀ id child p c, t = .adopt id child → s.ref? id = some p → s.ref? child = some c →
    (∃ a, (s.step t).2 = .ok a) → s.IsAdopted id child p c later
  looks : t.writes = false → t.makes = false → (s.step t).1 = s
  fails : ∀ error, (s.step t).2 = .error error → (s.step t).1 = s
  makes : t.makes = true → ∀ a, (s.step t).2 = .ok a →
    (∀ id, id ≠ t.id → (s.step t).1.entity? id = s.entity? id) ∧
      ∃ r, (s.step t).1.IsIsolated t.id r later

variable {s s' : Session} {t : SessionStep} {r o : Ref}

/-- An entity stays as it is, unless it reaches the object that a step writes to. -/
theorem entityAt_step (closed : s.IsClosed) (acyclic : (s.step t).1.IsAcyclic)
    (inside : r < s.objects.length)
    (apart : t.writes = true → ∀ o, s.ref? t.id = some o → ¬ s.Reaches r o) :
    (s.step t).1.entityAt r = s.entityAt r :=
  (isChange_step s t).entityAt closed acyclic inside apart

theorem ref?_of_writes (writes : t.writes = true) (id : String) :
    (s.step t).1.ref? id = s.ref? id := by
  have change := isChange_step s t
  generalize (s.step t).1 = s' at change
  cases change with
  | write k named => rfl
  | adopt named given => rfl
  | make makes e => cases t <;> simp [SessionStep.writes, SessionStep.makes] at writes makes
  | keep unmade => rfl

/-- What is seen to change under an identifier reaches what the step writes to. -/
theorem reaches_of_entity?_ne (closed : s.IsClosed) (acyclic : (s.step t).1.IsAcyclic)
    (writes : t.writes = true) {id : String} (changed : (s.step t).1.entity? id ≠ s.entity? id) :
    ∃ r o, s.ref? id = some r ∧ s.ref? t.id = some o ∧ s.Reaches r o := by
  rw [entity?, ref?_of_writes writes, entity?] at changed
  cases named : s.ref? id with
  | none =>
    rw [named] at changed
    exact absurd rfl changed
  | some r =>
    by_contra unreached
    have inside := closed.names _ (mem_names_of_ref? named)
    have same : (s.step t).1.entityAt r = s.entityAt r :=
      entityAt_step closed acyclic inside fun _ o ho reached => unreached ⟨r, o, rfl, ho, reached⟩
    rw [named, Option.map_some, Option.map_some, same] at changed
    exact changed rfl

/-- Steps on other identifiers are seen under an identifier only if they write to what it
reaches. -/
theorem entity?_step (closed : s.IsClosed) (acyclic : (s.step t).1.IsAcyclic) {id : String}
    (other : id ≠ t.id)
    (apart : t.writes = true →
      ∀ r o, s.ref? id = some r → s.ref? t.id = some o → ¬ s.Reaches r o) :
    (s.step t).1.entity? id = s.entity? id := by
  rw [entity?, (isChange_step s t).ref?_of_ne other, entity?]
  cases named : s.ref? id with
  | none => rfl
  | some r =>
    have inside := closed.names _ (mem_names_of_ref? named)
    rw [Option.map_some, Option.map_some,
      entityAt_step closed acyclic inside fun writes o => apart writes r o named]

/-- The entity of a child stands among those of the children, in the place where it was added. -/
theorem children_entityAt_after (closed : s.IsClosed) {steps : List SessionStep}
    (acyclic : (s.after steps).IsAcyclic) {i : Nat} {c : Ref}
    (child : (s.childrenAt r)[i]? = some c) :
    ((s.after steps).entityAt r).children[i]? = some ((s.after steps).entityAt c) := by
  obtain ⟨ds, children⟩ := childrenAt_after closed steps r
  obtain ⟨inside, -⟩ := List.getElem?_eq_some_iff.mp child
  rw [entityAt_eq_toEntity (isClosed_after closed steps) acyclic]
  show (((s.after steps).childrenAt r).map (s.after steps).entityAt)[i]? = _
  rw [children, List.getElem?_map, List.getElem?_append_left inside, child]
  rfl

theorem change_adopt {id child : String} {p c : Ref} (named : s.ref? id = some p)
    (given : s.ref? child = some c) : s.change (.adopt id child) = s.adopt p c :=
  (withRef_of_ref? named).trans (withRef_of_ref? given)

theorem isContainer_of_answered {id child : String} {p c : Ref} (named : s.ref? id = some p)
    (given : s.ref? child = some c) {a : SessionAnswer}
    (answered : (s.step (.adopt id child)).2 = .ok a) :
    (s.objectAt p).cls.isContainer = true := by
  by_contra unable
  rw [step, (change_adopt named given).trans (if_neg unable)] at answered
  cases answered

/-- What is reached after a child was added: what was reached before, and from where the parent was
reached, what the child reaches. -/
theorem reaches_addChild_iff {p c : Ref} (inside : p < s.objects.length) {d : Ref} :
    (s.update p (·.addChild c)).Reaches r d ↔
      s.Reaches r d ∨ s.Reaches r p ∧ s.Reaches c d := by
  have old : ∀ i j, s.Reaches i j → (s.update p (·.addChild c)).Reaches i j := by
    refine fun i j => Relation.ReflTransGen.mono ?_ i j
    intro i j child
    rw [IsChild, childrenAt_addChild inside]
    by_cases same : i = p
    · rw [if_pos same]
      exact List.mem_append_left _ (same ▸ child)
    · rw [if_neg same]
      exact child
  constructor
  · intro reached
    -- a path that takes the new edge is cut before the first and behind the last time it does
    induction reached with
    | refl => exact Or.inl (Reaches.refl s r)
    | @tail i d _ child ih =>
      rw [IsChild, childrenAt_addChild inside] at child
      by_cases same : i = p
      · rw [if_pos same] at child
        rcases List.mem_append.mp child with child | new
        · rw [← same] at child
          exact ih.imp (fun h => h.tail child) fun h => ⟨h.1, h.2.tail child⟩
        · obtain rfl := List.mem_singleton.mp new
          rw [same] at ih
          exact Or.inr ⟨ih.elim (fun h => h) fun h => h.1, Reaches.refl s d⟩
      · rw [if_neg same] at child
        exact ih.imp (fun h => h.tail child) fun h => ⟨h.1, h.2.tail child⟩
  · rintro (reached | ⟨before, behind⟩)
    · exact old r d reached
    · refine (old r p before).trans (Reaches.of_child ?_ (old c d behind))
      rw [IsChild, childrenAt_addChild inside, if_pos rfl]
      exact List.mem_append_right _ (List.mem_singleton_self c)

/-- A child that is added links two objects if the one reaches the parent, and the child has
something in common with the other. -/
theorem not_areApart_addChild_iff {p c : Ref} (inside : p < s.objects.length)
    (apart : s.AreApart r o) :
    ¬ (s.update p (·.addChild c)).AreApart r o ↔
      s.Reaches r p ∧ ¬ s.AreApart c o ∨ s.Reaches o p ∧ ¬ s.AreApart c r := by
  simp only [AreApart, reaches_addChild_iff inside, not_forall, not_not]
  constructor
  · rintro ⟨d, hr | ⟨hrp, hcd⟩, ho | ⟨hop, hcd'⟩⟩
    · exact absurd ho (apart d hr)
    · exact Or.inr ⟨hop, d, hcd', hr⟩
    · exact Or.inl ⟨hrp, d, hcd, ho⟩
    · exact absurd hop (apart p hrp)
  · rintro (⟨hrp, d, hcd, ho⟩ | ⟨hop, d, hcd, hr⟩)
    · exact ⟨d, Or.inr ⟨hrp, hcd⟩, Or.inl ho⟩
    · exact ⟨d, Or.inl hr, Or.inr ⟨hop, hcd⟩⟩

/-- A child that was added to a container is shared by it. -/
theorem isAdopted (closed : s.IsClosed) {id child : String} {p c : Ref}
    (named : s.ref? id = some p) (given : s.ref? child = some c) {a : SessionAnswer}
    (answered : (s.step (.adopt id child)).2 = .ok a) {later : List SessionStep}
    (acyclic : ((s.step (.adopt id child)).1.after later).IsAcyclic) :
    s.IsAdopted id child p c later := by
  have inside : p < s.objects.length := closed.names _ (mem_names_of_ref? named)
  have able := isContainer_of_answered named given answered
  have adopted := step_of_change ((change_adopt named given).trans (if_pos able))
  have closed' := (isChange_step s (.adopt id child)).isClosed closed
  refine ⟨?_, ?_⟩
  · rintro l m rfl
    rw [after_append] at acyclic
    refine children_entityAt_after closed' (isAcyclic_of_after (isClosed_after closed' l) acyclic) ?_
    have children := childrenAt_addChild inside c p
    rw [if_pos rfl] at children
    rw [adopted]
    exact (congrArg (·[(s.childrenAt p).length]?) children).trans (by simp)
  · intro r o apart
    rw [Links, adopted]
    exact not_areApart_addChild_iff inside apart

/-- What was made has nothing in common with what other identifiers come to name. -/
theorem areApart_of_mem_names {s₁ : Session} {id other : String} {p q : Ref} (closed : s.IsClosed)
    (grown : IsGrown s s₁) (new : s.objects.length ≤ p) (inside : p < s₁.objects.length)
    (closed' : (s₁.bindName id p).IsClosed) (differs : other ≠ id) (l : List SessionStep)
    (named : ((s₁.bindName id p).after l).ref? other = some q) :
    (s₁.bindName id p).AreApart p q := by
  rcases names_after _ l _ (mem_names_of_ref? named) with earlier | later
  · rw [bindName, grown.names] at earlier
    rcases List.mem_cons.mp earlier with same | earlier
    · exact absurd (Prod.mk.inj same).1 differs
    · exact (grown.areApart closed (closed.names _ earlier) new).symm
  · intro d hp hq
    have old := closed'.lt_of_reaches inside hp
    rw [eq_of_reaches later hq] at old
    exact absurd old (Nat.not_lt.mpr later)

/-- What a step makes is isolated. -/
theorem exists_isIsolated (closed : s.IsClosed) (makes : t.makes = true) {a : SessionAnswer}
    (answered : (s.step t).2 = .ok a) {later : List SessionStep}
    (acyclic : ((s.step t).1.after later).IsAcyclic) :
    ∃ r, (s.step t).1.IsIsolated t.id r later := by
  have change := isChange_step s t
  have closed' := change.isClosed closed
  generalize stepped : (s.step t).1 = s' at acyclic change closed'
  cases change with
  | write k named => cases makes
  | adopt named given => cases makes
  | keep unmade =>
    obtain ⟨error, failed⟩ := unmade makes
    rw [step, failed] at answered
    cases answered
  | make _ e =>
    obtain ⟨s₁, p, grown, new, last, stored⟩ := store_eq s t.id e
    rw [stored] at acyclic closed' ⊢
    have inside : p < s₁.objects.length := by
      rw [last]
      exact Nat.lt_succ_self p
    have apart : ∀ l other q, other ≠ t.id → ((s₁.bindName t.id p).after l).ref? other = some q →
        (s₁.bindName t.id p).AreApart p q :=
      fun l _ _ differs => areApart_of_mem_names closed grown new inside closed' differs l
    refine ⟨p, ?_, apart [], ?_, ?_⟩
    · rw [ref?_bindName, if_pos rfl]
    · rintro l u m rfl differs never
      have closedₗ := isClosed_after closed' l
      rw [after_append] at acyclic
      have acyclicₗ := isAcyclic_of_after ((isChange_step _ u).isClosed closedₗ) acyclic
      have insideₗ := Nat.lt_of_lt_of_le inside (length_le_after (s₁.bindName t.id p) l)
      refine entityAt_step closedₗ acyclicₗ insideₗ fun _ q named => ?_
      have apartₗ := areApart_after closed' inside (apart l u.id q differs named) (never q named)
      exact apartₗ.not_reaches
    · -- the step is on the object itself, so the other one is what has to stay
      rintro l u m rfl hu still other q differs named never
      have closedₗ := isClosed_after closed' l
      rw [after_append] at acyclic
      have acyclicₗ := isAcyclic_of_after ((isChange_step _ u).isClosed closedₗ) acyclic
      have apartₗ := areApart_after closed' inside (apart l other q differs named) never
      refine entity?_step closedₗ acyclicₗ (hu ▸ differs) fun _ r o hr ho => ?_
      obtain rfl : q = r := Option.some.inj (named.symm.trans hr)
      rw [hu] at ho
      obtain rfl : p = o := Option.some.inj (still.symm.trans ho)
      exact apartₗ.symm.not_reaches

/-- Every step of a session without an object that becomes its own descendant is framed. -/
theorem isFramed_after (before : List SessionStep) (t : SessionStep) (later : List SessionStep)
    (acyclic : (empty.after (before ++ t :: later)).IsAcyclic) :
    IsFramed (empty.after before) t later := by
  rw [after_append] at acyclic
  generalize started : empty.after before = s at acyclic
  have closed : s.IsClosed := started ▸ isClosed_after isClosed_empty before
  have closed' := (isChange_step s t).isClosed closed
  have acyclic' : (s.step t).1.IsAcyclic := isAcyclic_of_after closed' acyclic
  refine ⟨?_, ?_, ?_, ?_, ?_⟩
  · intro writes id changed
    exact reaches_of_entity?_ne closed acyclic' writes changed
  · rintro id child p c rfl named given ⟨a, answered⟩
    exact isAdopted closed named given answered acyclic
  · intro writes makes
    rw [step, change_of_looks ⟨writes, makes⟩]
  · intro error failed
    exact step_of_error failed
  · intro makes a answered
    refine ⟨?_, exists_isIsolated closed makes answered acyclic⟩
    intro id other
    refine entity?_step closed acyclic' other fun writes => ?_
    cases t <;> simp [SessionStep.writes, SessionStep.makes] at writes makes

/-- A step of a session without an object that becomes its own descendant changes no more than what
reaches the object that it writes to. The same is seen where objects refer to maps of attributes,
since records refer to copies, and it does not matter how the maps of a record are changed. -/
theorem step_isFramed (before : List SessionStep) (t : SessionStep) (later : List SessionStep)
    (acyclic : (empty.after (before ++ t :: later)).IsAcyclic) :
    IsFramed (empty.after before) t later ∧
      ∀ edit, (Heap.empty.after edit (before ++ t :: later)).toSession =
        empty.after (before ++ t :: later) :=
  ⟨isFramed_after before t later acyclic, fun edit => (Heap.empty_after_shows edit _).shows⟩

/-- An input of a form that is written to and added to the node which was made out of the form,
while the maps of a record of the form are emptied. -/
theorem step_isFramed_convert :
    let before : List SessionStep := [.create "f" .form (.text "login"),
      .create "a" .input (.text "user"), .adopt "f" "a"]
    let t : SessionStep := .convert "h" "f" .node
    let later : List SessionStep :=
      [.alterRecord "f", .attribute "a" (.text "size") (.text "8"), .adopt "h" "a"]
    IsFramed (empty.after before) t later ∧
      (Heap.empty.after (fun _ => []) (before ++ t :: later)).toSession =
        empty.after (before ++ t :: later) := by
  intro before t later
  have acyclic : (empty.after (before ++ t :: later)).IsAcyclic := by
    apply isAcyclic_of_rank fun r => if r = 0 ∨ r = 3 then 1 else 0
    intro r
    by_cases inside : r < 4
    · revert r
      decide +kernel
    · rw [childrenAt_of_le (Nat.le_of_not_lt inside)]
      simp
  obtain ⟨framed, shown⟩ := step_isFramed before t later acyclic
  exact ⟨framed, shown fun _ => []⟩

end TagOutline.Session
