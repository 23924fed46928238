import TagOutline.Proofs.Entity.Reach

/-!
# What a step leaves as it is

A step writes to one object, makes new ones or changes nothing. So an entity is seen to change only
if the object that is written to is reached from it, and what is made has nothing in common with
what was there, until a child is added that links the two.
-/

namespace TagOutline

namespace SessionStep

/-- The identifier that a step is about. -/
def id : SessionStep → String
  | .create id .. => id
  | .attribute id .. => id
  | .adopt id _ => id
  | .convert id .. => id
  | .read id .. => id
  | .alterRecord id => id
  | .toJson id _ => id
  | .toHtml id .. => id
  | .describe id => id
  | .compare id _ => id

/-- The step writes to an object. -/
def writes : SessionStep → Bool
  | .attribute .. => true
  | .adopt .. => true
  | _ => false

/-- The step makes an entity. -/
def makes : SessionStep → Bool
  | .create .. => true
  | .convert .. => true
  | .read .. => true
  | _ => false

end SessionStep

namespace Session

/-- A session with more objects. What was there is kept, and a new object has none but new children,
which were made before it. -/
structure IsGrown (s s' : Session) : Prop where
  names : s'.names = s.names
  length : s.objects.length ≤ s'.objects.length
  old : ∀ r < s.objects.length, s'.objectAt r = s.objectAt r
  new : ∀ r, s.objects.length ≤ r → ∀ d ∈ s'.childrenAt r, s.objects.length ≤ d ∧ d < r

/-- What a step makes of a session. -/
inductive IsChange (s : Session) : SessionStep → Session → Prop
  | write {id : String} {key value : Value} {r : Ref} (k : Key)
      (named : s.ref? id = some r) :
      IsChange s (.attribute id key value)
        (s.update r fun o => { o with attributes := o.attributes.put k value })
  | adopt {id child : String} {r c : Ref} (named : s.ref? id = some r)
      (given : s.ref? child = some c) : IsChange s (.adopt id child) (s.update r (·.addChild c))
  | make {t : SessionStep} (makes : t.makes = true) (e : Entity) : IsChange s t (s.store t.id e)
  | keep {t : SessionStep} (unmade : t.makes = true → ∃ error, s.change t = .error error) :
      IsChange s t s

/-- The session after some steps. -/
def after (s : Session) (steps : List SessionStep) : Session :=
  steps.foldl (fun s t => (s.step t).1) s

/-- Adding a child after which two objects have something in common. -/
def Links (s : Session) (r o : Ref) : SessionStep → Prop
  | .adopt id child => ¬ (s.step (.adopt id child)).1.AreApart r o
  | _ => False

/-- None of the steps links two objects. -/
def NeverLinked (s : Session) (r o : Ref) (steps : List SessionStep) : Prop :=
  ∀ l t m, steps = l ++ t :: m → ¬ (s.after l).Links r o t

variable {s s' : Session} {t : SessionStep} {r d o : Ref}

/-! Making entities. -/

theorem IsGrown.refl (s : Session) : IsGrown s s where
  names := rfl
  length := Nat.le_refl _
  old := fun _ _ => rfl
  new := by
    intro r outside d hd
    rw [childrenAt_of_le outside] at hd
    cases hd

theorem IsGrown.trans {s₁ s₂ : Session} (h : IsGrown s s₁) (h' : IsGrown s₁ s₂) : IsGrown s s₂ where
  names := h'.names.trans h.names
  length := Nat.le_trans h.length h'.length
  old := by
    intro r hr
    rw [h'.old r (Nat.lt_of_lt_of_le hr h.length), h.old r hr]
  new := by
    intro r hr d hd
    by_cases first : r < s₁.objects.length
    · rw [childrenAt, h'.old r first] at hd
      exact h.new r hr d hd
    · obtain ⟨new, before⟩ := h'.new r (Nat.le_of_not_lt first) d hd
      exact ⟨Nat.le_trans h.length new, before⟩

theorem IsGrown.insert {s₁ : Session} (h : IsGrown s s₁) {o : StoredEntity}
    (children : ∀ d ∈ o.children, s.objects.length ≤ d ∧ d < s₁.objects.length) :
    IsGrown s (s₁.insert o).1 where
  names := h.names
  length := by
    rw [length_insert]
    exact Nat.le_succ_of_le h.length
  old := by
    intro r hr
    rw [objectAt_insert_of_lt (Nat.lt_of_lt_of_le hr h.length), h.old r hr]
  new := by
    intro r hr d hd
    rcases Nat.lt_trichotomy r s₁.objects.length with first | rfl | outside
    · rw [childrenAt, objectAt_insert_of_lt first] at hd
      exact h.new r hr d hd
    · rw [childrenAt, objectAt_insert_self] at hd
      exact children d hd
    · rw [childrenAt_of_le (by rw [length_insert]; omega)] at hd
      cases hd

mutual

/-- An entity is put in as the last of the new objects. -/
theorem isGrown_insertEntity (s : Session) : ∀ e : Entity,
    IsGrown s (s.insertEntity e).1 ∧ s.objects.length ≤ (s.insertEntity e).2 ∧
      (s.insertEntity e).1.objects.length = (s.insertEntity e).2 + 1
  | ⟨cls, name, attributes, children⟩ => by
    obtain ⟨grown, refs⟩ := isGrown_insertAll s children
    rw [insertEntity]
    exact ⟨grown.insert refs, grown.length, length_insert _ _⟩

theorem isGrown_insertAll (s : Session) : ∀ es : List Entity,
    IsGrown s (s.insertAll es).1 ∧
      ∀ r ∈ (s.insertAll es).2, s.objects.length ≤ r ∧ r < (s.insertAll es).1.objects.length
  | [] => by
    rw [insertAll]
    exact ⟨IsGrown.refl s, fun r hr => by cases hr⟩
  | e :: es => by
    obtain ⟨first, new, last⟩ := isGrown_insertEntity s e
    obtain ⟨others, refs⟩ := isGrown_insertAll (s.insertEntity e).1 es
    rw [insertAll]
    refine ⟨first.trans others, ?_⟩
    intro r hr
    rcases List.mem_cons.mp hr with rfl | hr
    · have inside : (s.insertEntity e).2 < (s.insertEntity e).1.objects.length := by
        rw [last]
        exact Nat.lt_succ_self _
      exact ⟨new, Nat.lt_of_lt_of_le inside others.length⟩
    · obtain ⟨later, inside⟩ := refs r hr
      exact ⟨Nat.le_trans first.length later, inside⟩

end

/-! Steps. -/

theorem ref?_bindName (s : Session) (id id' : String) (r : Ref) :
    (s.bindName id r).ref? id' = if id' = id then some r else s.ref? id' := by
  by_cases same : id' = id
  · simp [ref?, bindName, same]
  · have other : (id' == id) = false := by simp [same]
    simp [ref?, bindName, same, List.lookup_cons, other]

theorem mem_names_of_ref? {id : String} (named : s.ref? id = some r) : (id, r) ∈ s.names := by
  obtain ⟨before, later, names, -⟩ := List.lookup_eq_some_iff.mp named
  simp [names]

theorem withRef_eq_ok {α : Type} {id member : String} {f : Ref → Except SessionError α} {a : α}
    (h : s.withRef id member f = .ok a) : ∃ r, s.ref? id = some r ∧ f r = .ok a := by
  cases named : s.ref? id with
  | none =>
    rw [withRef, named] at h
    cases h
  | some r =>
    rw [withRef, named] at h
    exact ⟨r, rfl, h⟩

theorem change_eq_ok (h : s.change t = .ok s') : IsChange s t s' := by
  cases t with
  | create id cls name =>
    obtain rfl := Except.ok.inj h
    exact IsChange.make rfl _
  | «attribute» id key value =>
    obtain ⟨r, named, written⟩ := withRef_eq_ok h
    cases hk : key.toKey? with
    | none =>
      rw [writeAttribute, hk] at written
      cases written
    | some k =>
      rw [writeAttribute, hk] at written
      obtain rfl := Except.ok.inj written
      exact IsChange.write k named
  | adopt id child =>
    obtain ⟨r, named, h⟩ := withRef_eq_ok h
    obtain ⟨c, given, h⟩ := withRef_eq_ok h
    rw [adopt_eq] at h
    split at h
    · obtain rfl := Except.ok.inj h
      exact IsChange.adopt named given
    · cases h
  | convert id source cls =>
    rw [change] at h
    split at h
    · cases h
    · obtain ⟨r, -, h⟩ := withRef_eq_ok h
      simp only at h
      split at h
      · cases h
      · obtain rfl := Except.ok.inj h
        exact IsChange.make rfl _
  | read id cls text =>
    rw [change] at h
    split at h
    · cases h
    · obtain rfl := Except.ok.inj h
      exact IsChange.make rfl _
  | alterRecord id =>
    obtain rfl := Except.ok.inj h
    exact IsChange.keep fun makes => nomatch makes
  | toJson id indent =>
    obtain rfl := Except.ok.inj h
    exact IsChange.keep fun makes => nomatch makes
  | toHtml id style childRenderer =>
    obtain rfl := Except.ok.inj h
    exact IsChange.keep fun makes => nomatch makes
  | describe id =>
    obtain rfl := Except.ok.inj h
    exact IsChange.keep fun makes => nomatch makes
  | compare id other =>
    obtain rfl := Except.ok.inj h
    exact IsChange.keep fun makes => nomatch makes

theorem isChange_step (s : Session) (t : SessionStep) : IsChange s t (s.step t).1 := by
  rw [step]
  cases changed : s.change t with
  | error error => exact IsChange.keep fun _ => ⟨error, changed⟩
  | ok s' => exact change_eq_ok changed

theorem step_of_change (changed : s.change t = .ok s') : (s.step t).1 = s' := by
  rw [step, changed]

theorem step_of_failed {error : SessionError} (failed : s.change t = .error error) :
    (s.step t).1 = s := by
  rw [step, failed]

/-- What is made is the last of the new objects, and its identifier names it. -/
theorem store_eq (s : Session) (id : String) (e : Entity) :
    ∃ s₁ r, IsGrown s s₁ ∧ s.objects.length ≤ r ∧ s₁.objects.length = r + 1 ∧
      s.store id e = s₁.bindName id r := by
  obtain ⟨grown, new, last⟩ := isGrown_insertEntity s e
  exact ⟨_, _, grown, new, last, rfl⟩

namespace IsGrown

theorem childrenAt (h : IsGrown s s') (inside : r < s.objects.length) :
    s'.childrenAt r = s.childrenAt r := by
  rw [Session.childrenAt, h.old r inside, Session.childrenAt]

/-- From what was there nothing new is reached. -/
theorem reaches_old (h : IsGrown s s') (closed : s.IsClosed) (inside : r < s.objects.length)
    (reached : s'.Reaches r d) : s.Reaches r d := by
  induction reached with
  | refl => exact Reaches.refl s r
  | @tail i d _ child ih =>
    rw [IsChild, h.childrenAt (closed.lt_of_reaches inside ih)] at child
    exact Relation.ReflTransGen.tail ih child

/-- From what is new nothing is reached that was there. -/
theorem reaches_new (h : IsGrown s s') (outside : s.objects.length ≤ r)
    (reached : s'.Reaches r d) : s.objects.length ≤ d := by
  induction reached with
  | refl => exact outside
  | tail _ child ih => exact (h.new _ ih _ child).1

theorem areApart (h : IsGrown s s') (closed : s.IsClosed) (inside : r < s.objects.length)
    (outside : s.objects.length ≤ o) : s'.AreApart r o := by
  intro d hr ho
  have old := closed.lt_of_reaches inside (h.reaches_old closed inside hr)
  exact absurd old (Nat.not_lt.mpr (h.reaches_new outside ho))

end IsGrown

/-! What a change keeps. -/

namespace IsChange

theorem length_le (h : IsChange s t s') : s.objects.length ≤ s'.objects.length := by
  cases h with
  | write k named => rw [length_update]
  | adopt named given => rw [length_update]
  | make makes e =>
    obtain ⟨s₁, r, grown, -, -, stored⟩ := store_eq s t.id e
    rw [stored]
    exact grown.length
  | keep unmade => exact Nat.le_refl _

/-- Only the identifier that the step is about comes to name another object, and that one is new. -/
theorem names (h : IsChange s t s') :
    s'.names = s.names ∨ ∃ r, s.objects.length ≤ r ∧ s'.names = (t.id, r) :: s.names := by
  cases h with
  | write k named => exact Or.inl rfl
  | adopt named given => exact Or.inl rfl
  | make makes e =>
    obtain ⟨s₁, r, grown, new, -, stored⟩ := store_eq s t.id e
    rw [stored]
    exact Or.inr ⟨r, new, by rw [bindName, grown.names]⟩
  | keep unmade => exact Or.inl rfl

theorem ref?_of_ne (h : IsChange s t s') {id : String} (other : id ≠ t.id) :
    s'.ref? id = s.ref? id := by
  rcases h.names with names | ⟨r, -, names⟩
  · rw [ref?, names, ref?]
  · have differs : (id == t.id) = false := by simp [other]
    rw [ref?, names, List.lookup_cons, differs, ref?]

/-- Children are added behind those that were there. -/
theorem childrenAt (h : IsChange s t s') (closed : s.IsClosed) (r : Ref) :
    ∃ ds, s'.childrenAt r = s.childrenAt r ++ ds := by
  cases h with
  | write k named =>
    refine ⟨[], ?_⟩
    rw [List.append_nil]
    apply childrenAt_update
    intro o
    rfl
  | @adopt id child p c named given =>
    have inside := closed.names _ (mem_names_of_ref? named)
    rw [childrenAt_addChild inside]
    by_cases same : r = p
    · rw [if_pos same, same]
      exact ⟨[c], rfl⟩
    · rw [if_neg same]
      exact ⟨[], (List.append_nil _).symm⟩
  | make makes e =>
    obtain ⟨s₁, p, grown, -, -, stored⟩ := store_eq s t.id e
    rw [stored]
    by_cases inside : r < s.objects.length
    · exact ⟨[], (grown.childrenAt inside).trans (List.append_nil _).symm⟩
    · rw [childrenAt_of_le (Nat.le_of_not_lt inside)]
      exact ⟨_, rfl⟩
  | keep unmade => exact ⟨[], (List.append_nil _).symm⟩

theorem isChild (h : IsChange s t s') (closed : s.IsClosed) (child : s.IsChild r d) :
    s'.IsChild r d := by
  obtain ⟨ds, children⟩ := h.childrenAt closed r
  rw [IsChild, children]
  exact List.mem_append_left _ child

theorem isClosed (h : IsChange s t s') (closed : s.IsClosed) : s'.IsClosed := by
  cases h with
  | write k named =>
    refine ⟨?_, ?_⟩
    · intro r d hd
      rw [childrenAt_update (by intro o; rfl)] at hd
      rw [length_update]
      exact closed.children r d hd
    · intro n hn
      rw [length_update]
      exact closed.names n hn
  | @adopt id child p c named given =>
    have inside := closed.names _ (mem_names_of_ref? named)
    refine ⟨?_, ?_⟩
    · intro r d hd
      rw [length_update]
      rw [childrenAt_addChild inside] at hd
      by_cases same : r = p
      · rw [if_pos same] at hd
        rcases List.mem_append.mp hd with old | new
        · exact closed.children p d old
        · obtain rfl := List.mem_singleton.mp new
          exact closed.names _ (mem_names_of_ref? given)
      · rw [if_neg same] at hd
        exact closed.children r d hd
    · intro n hn
      rw [length_update]
      exact closed.names n hn
  | make makes e =>
    obtain ⟨s₁, p, grown, new, last, stored⟩ := store_eq s t.id e
    rw [stored]
    have inside : p < s₁.objects.length := by
      rw [last]
      exact Nat.lt_succ_self p
    refine ⟨?_, ?_⟩
    · intro r d hd
      by_cases old : r < s.objects.length
      · have child : d ∈ s.childrenAt r := by
          rw [← grown.childrenAt old]
          exact hd
        exact Nat.lt_of_lt_of_le (closed.children r d child) grown.length
      · have before := (grown.new r (Nat.le_of_not_lt old) d hd).2
        exact Nat.lt_trans before (lt_of_isChild hd)
    · intro n hn
      rw [bindName, grown.names] at hn
      rcases List.mem_cons.mp hn with rfl | hn
      · exact inside
      · exact Nat.lt_of_lt_of_le (closed.names n hn) grown.length
  | keep unmade => exact closed

theorem isAcyclic (h : IsChange s t s') (closed : s.IsClosed) (acyclic : s'.IsAcyclic) :
    s.IsAcyclic :=
  acyclic.of_isChild fun _ _ child => h.isChild closed child

/-- An object is kept, unless it is written to. -/
theorem objectAt (h : IsChange s t s') (inside : d < s.objects.length)
    (kept : t.writes = true → s.ref? t.id ≠ some d) : s'.objectAt d = s.objectAt d := by
  cases h with
  | @write id key value r k named =>
    apply objectAt_update_of_ne
    rintro rfl
    exact kept rfl named
  | @adopt id child r c named given =>
    apply objectAt_update_of_ne
    rintro rfl
    exact kept rfl named
  | make makes e =>
    obtain ⟨s₁, r, grown, -, -, stored⟩ := store_eq s t.id e
    rw [stored]
    exact grown.old d inside
  | keep unmade => rfl

/-- An entity is kept, unless it reaches the object that is written to. -/
theorem entityAt (h : IsChange s t s') (closed : s.IsClosed) (acyclic : s'.IsAcyclic)
    (inside : r < s.objects.length)
    (kept : t.writes = true → ∀ o, s.ref? t.id = some o → ¬ s.Reaches r o) :
    s'.entityAt r = s.entityAt r := by
  refine entityAt_of_same closed (h.isAcyclic closed acyclic) (h.isClosed closed) acyclic ?_
  intro d reached
  refine h.objectAt (closed.lt_of_reaches inside reached) ?_
  intro writes named
  exact kept writes d named reached

end IsChange

/-! Two objects that have nothing in common. -/

theorem areApart_step (closed : s.IsClosed) (inside : r < s.objects.length)
    (apart : s.AreApart r o) (unlinked : ¬ s.Links r o t) : (s.step t).1.AreApart r o := by
  have change := isChange_step s t
  generalize changed : (s.step t).1 = s' at change
  cases change with
  | @write id key value p k named =>
    have same : ∀ i, s.childrenAt i =
        (s.update p fun o => { o with attributes := o.attributes.put k value }).childrenAt i := by
      intro i
      rw [childrenAt_update]
      intro o
      rfl
    intro d hr ho
    exact apart d (hr.of_childrenAt fun i _ => same i) (ho.of_childrenAt fun i _ => same i)
  | adopt named given =>
    by_contra linked
    rw [← changed] at linked
    exact unlinked linked
  | make makes e =>
    obtain ⟨s₁, p, grown, -, -, stored⟩ := store_eq s t.id e
    rw [stored]
    by_cases old : o < s.objects.length
    · intro d hr ho
      exact apart d (grown.reaches_old closed inside hr) (grown.reaches_old closed old ho)
    · exact grown.areApart closed inside (Nat.le_of_not_lt old)
  | keep unmade => exact apart

/-! Runs. -/

theorem after_append (s : Session) (l m : List SessionStep) :
    s.after (l ++ m) = (s.after l).after m :=
  List.foldl_append

theorem isClosed_empty : empty.IsClosed where
  children := by
    intro r d hd
    rw [childrenAt_of_le (Nat.zero_le r)] at hd
    cases hd
  names := by
    intro n hn
    cases hn

theorem isClosed_after (closed : s.IsClosed) (steps : List SessionStep) :
    (s.after steps).IsClosed := by
  induction steps generalizing s with
  | nil => exact closed
  | cons t steps ih => exact ih ((isChange_step s t).isClosed closed)

theorem length_le_after (s : Session) (steps : List SessionStep) :
    s.objects.length ≤ (s.after steps).objects.length := by
  induction steps generalizing s with
  | nil => exact Nat.le_refl _
  | cons t steps ih => exact Nat.le_trans (isChange_step s t).length_le (ih _)

theorem isAcyclic_of_after (closed : s.IsClosed) {steps : List SessionStep}
    (acyclic : (s.after steps).IsAcyclic) : s.IsAcyclic := by
  induction steps generalizing s with
  | nil => exact acyclic
  | cons t steps ih =>
    have change := isChange_step s t
    exact change.isAcyclic closed (ih (change.isClosed closed) acyclic)

theorem childrenAt_after (closed : s.IsClosed) (steps : List SessionStep) (r : Ref) :
    ∃ ds, (s.after steps).childrenAt r = s.childrenAt r ++ ds := by
  induction steps generalizing s with
  | nil => exact ⟨[], (List.append_nil _).symm⟩
  | cons t steps ih =>
    have change := isChange_step s t
    obtain ⟨ds, first⟩ := change.childrenAt closed r
    obtain ⟨ds', others⟩ := ih (change.isClosed closed)
    exact ⟨ds ++ ds', by rw [← List.append_assoc, ← first]; exact others⟩

/-- What an identifier comes to name is new. -/
theorem names_after (s : Session) (steps : List SessionStep) :
    ∀ n ∈ (s.after steps).names, n ∈ s.names ∨ s.objects.length ≤ n.2 := by
  induction steps generalizing s with
  | nil => exact fun n hn => Or.inl hn
  | cons t steps ih =>
    have change := isChange_step s t
    intro n hn
    rcases ih _ n hn with named | new
    · rcases change.names with names | ⟨r, new, names⟩
      · exact Or.inl (names ▸ named)
      · rw [names] at named
        rcases List.mem_cons.mp named with rfl | named
        · exact Or.inr new
        · exact Or.inl named
    · exact Or.inr (Nat.le_trans change.length_le new)

theorem areApart_after (closed : s.IsClosed) (inside : r < s.objects.length)
    (apart : s.AreApart r o) {steps : List SessionStep} (never : s.NeverLinked r o steps) :
    (s.after steps).AreApart r o := by
  induction steps generalizing s with
  | nil => exact apart
  | cons t steps ih =>
    have change := isChange_step s t
    have first := areApart_step closed inside apart (never [] t steps rfl)
    refine ih (change.isClosed closed) (Nat.lt_of_lt_of_le inside change.length_le) first ?_
    intro l u m split
    exact never (t :: l) u m (by rw [split, List.cons_append])

/-! What steps answer. -/

theorem withRef_of_ref? {α : Type} {id member : String} {f : Ref → Except SessionError α}
    (named : s.ref? id = some r) : s.withRef id member f = f r := by
  rw [withRef, named]

theorem withRef_of_none {α : Type} {id member : String} {f : Ref → Except SessionError α}
    (unnamed : s.ref? id = none) : s.withRef id member f = .error (.nothing member) := by
  rw [withRef, unnamed]

theorem withEntity_of_ref? {α : Type} {id member : String} {f : Entity → Except SessionError α}
    (named : s.ref? id = some r) : s.withEntity id member f = f (s.entityAt r) := by
  rw [withEntity, withRef_of_ref? named]

/-- A step that writes or makes answers with the entity that its identifier names then. -/
theorem answer_of_ref? (acts : t.writes = true ∨ t.makes = true) (named : s.ref? t.id = some r) :
    s.answer t = .ok (.entity (s.entityAt r)) := by
  cases t with
  | create | «attribute» | adopt | convert | read =>
    rw [answer]
    exact withEntity_of_ref? named
  | _ => simp [SessionStep.writes, SessionStep.makes] at acts

theorem change_of_looks (looks : t.writes = false ∧ t.makes = false) : s.change t = .ok s := by
  cases t with
  | create | «attribute» | adopt | convert | read =>
    simp [SessionStep.writes, SessionStep.makes] at looks
  | _ => rfl

/-- A step that fails changes nothing. -/
theorem step_of_error {error : SessionError} (failed : (s.step t).2 = .error error) :
    (s.step t).1 = s := by
  cases changed : s.change t with
  | error error => rw [step, changed]
  | ok s' =>
    rw [step, changed] at failed ⊢
    -- what was written to or made is there to be answered with
    have unanswered : ∀ r, t.writes = true ∨ t.makes = true → s'.ref? t.id ≠ some r := by
      intro r acts named
      have answered : s'.answer t = .error error := failed
      rw [answer_of_ref? acts named] at answered
      cases answered
    cases change_eq_ok changed with
    | write k named => exact absurd named (unanswered _ (Or.inl rfl))
    | adopt named given => exact absurd named (unanswered _ (Or.inl rfl))
    | make makes e =>
      obtain ⟨s₁, r, -, -, -, stored⟩ := store_eq s t.id e
      refine absurd ?_ (unanswered r (Or.inr makes))
      rw [stored, ref?_bindName, if_pos rfl]
    | keep unmade => rfl

end Session

end TagOutline
