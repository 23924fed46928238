import TagOutline.Entity.Session

/-!
# The store of a session

What stands at a place of the store after an object was put in or changed, and what an entity in
the store looks like that has children, but no children of children.
-/

namespace TagOutline

def StoredEntity.write (o : StoredEntity) (w : String × String) : StoredEntity :=
  { o with attributes := o.attributes.put (.text w.1) (.text w.2) }

def StoredEntity.addChild (o : StoredEntity) (d : Ref) : StoredEntity :=
  { o with children := o.children ++ [d] }

/-- The entity of an object whose children are given. -/
def StoredEntity.toEntity (o : StoredEntity) (children : List Entity) : Entity :=
  ⟨o.cls, o.name, o.attributes, children⟩

namespace Session

/-- The object at a place. -/
def objectAt (s : Session) (r : Ref) : StoredEntity :=
  s.objects.getD r default

/-- The children of the object at a place. Where no object is, there are none. -/
def childrenAt (s : Session) (r : Ref) : List Ref :=
  (s.objectAt r).children

/-- Puts an object in and adds it to the children of another. -/
def insertChild (s : Session) (r : Ref) (o : StoredEntity) : Session :=
  (s.insert o).1.update r (·.addChild s.objects.length)

variable {s : Session} {o : StoredEntity} {r d : Ref}

/-! Putting an object in. -/

@[simp] theorem length_insert (s : Session) (o : StoredEntity) :
    (s.insert o).1.objects.length = s.objects.length + 1 := by
  simp [insert]

theorem objectAt_insert_of_lt (h : r < s.objects.length) (o : StoredEntity) :
    (s.insert o).1.objectAt r = s.objectAt r := by
  simp [insert, objectAt, List.getD_eq_getElem?_getD, List.getElem?_append_left h]

@[simp] theorem objectAt_insert_self (s : Session) (o : StoredEntity) :
    (s.insert o).1.objectAt s.objects.length = o := by
  simp [insert, objectAt]

theorem childrenAt_of_le (h : s.objects.length ≤ r) : s.childrenAt r = [] := by
  have outside : s.objectAt r = default := by
    simp [objectAt, List.getD_eq_getElem?_getD, List.getElem?_eq_none h]
  rw [childrenAt, outside]
  rfl

/-- An object without children has none, whether it is there or not. -/
theorem childrenAt_insert (leaf : o.children = []) (s : Session) (r : Ref) :
    (s.insert o).1.childrenAt r = s.childrenAt r := by
  rcases Nat.lt_trichotomy r s.objects.length with hr | rfl | hr
  · simp [childrenAt, objectAt_insert_of_lt hr]
  · rw [childrenAt_of_le (Nat.le_refl _), childrenAt, objectAt_insert_self, leaf]
  · rw [childrenAt_of_le (Nat.le_of_lt hr), childrenAt_of_le]
    rw [length_insert]
    omega

/-! Changing an object. -/

@[simp] theorem length_update (s : Session) (r : Ref) (f : StoredEntity → StoredEntity) :
    (s.update r f).objects.length = s.objects.length := by
  simp [update]

theorem objectAt_update_of_ne (h : d ≠ r) (f : StoredEntity → StoredEntity) :
    (s.update r f).objectAt d = s.objectAt d := by
  simp [update, objectAt, List.getD_eq_getElem?_getD, Ne.symm h]

theorem objectAt_update_self (h : r < s.objects.length) (f : StoredEntity → StoredEntity) :
    (s.update r f).objectAt r = f (s.objectAt r) := by
  simp [update, objectAt, List.getD_eq_getElem?_getD, h]

/-- A change that keeps the children of an object keeps all children. -/
theorem childrenAt_update {f : StoredEntity → StoredEntity} (same : ∀ o, (f o).children = o.children)
    (s : Session) (r d : Ref) : (s.update r f).childrenAt d = s.childrenAt d := by
  by_cases hd : d = r
  · subst hd
    by_cases inside : d < s.objects.length
    · rw [childrenAt, objectAt_update_self inside, same, childrenAt]
    · rw [childrenAt_of_le (by simpa using inside), childrenAt_of_le (by simpa using inside)]
  · rw [childrenAt, objectAt_update_of_ne hd, childrenAt]

theorem childrenAt_write (s : Session) (r : Ref) (w : String × String) (d : Ref) :
    (s.update r (·.write w)).childrenAt d = s.childrenAt d := by
  apply childrenAt_update
  intro o
  rfl

theorem childrenAt_addChild (inside : r < s.objects.length) (c d : Ref) :
    (s.update r (·.addChild c)).childrenAt d =
      if d = r then s.childrenAt r ++ [c] else s.childrenAt d := by
  by_cases same : d = r
  · subst same
    rw [if_pos rfl, childrenAt, objectAt_update_self inside]
    rfl
  · rw [if_neg same, childrenAt, objectAt_update_of_ne same, childrenAt]

/-! Putting a child in. -/

@[simp] theorem length_insertChild (s : Session) (r : Ref) (o : StoredEntity) :
    (s.insertChild r o).objects.length = s.objects.length + 1 := by
  rw [insertChild, length_update, length_insert]

theorem objectAt_insertChild (inside : r < s.objects.length) (o : StoredEntity)
    (hd : d < s.objects.length) :
    (s.insertChild r o).objectAt d =
      if d = r then (s.objectAt r).addChild s.objects.length else s.objectAt d := by
  by_cases same : d = r
  · subst same
    have inside' : d < (s.insert o).1.objects.length := by
      rw [length_insert]
      exact Nat.lt_succ_of_lt inside
    rw [if_pos rfl, insertChild, objectAt_update_self inside', objectAt_insert_of_lt inside]
  · rw [if_neg same, insertChild, objectAt_update_of_ne same, objectAt_insert_of_lt hd]

theorem objectAt_insertChild_length (inside : r < s.objects.length) (o : StoredEntity) :
    (s.insertChild r o).objectAt s.objects.length = o := by
  rw [insertChild, objectAt_update_of_ne (Nat.ne_of_gt inside), objectAt_insert_self]

theorem childrenAt_insertChild (leaf : o.children = []) (inside : r < s.objects.length) (d : Ref) :
    (s.insertChild r o).childrenAt d =
      if d = r then s.childrenAt r ++ [s.objects.length] else s.childrenAt d := by
  by_cases same : d = r
  · rw [if_pos same, same, childrenAt, objectAt_insertChild inside o inside, if_pos rfl]
    rfl
  · rw [if_neg same, childrenAt, insertChild, objectAt_update_of_ne same, ← childrenAt,
      childrenAt_insert leaf]

/-- A text as the key of an attribute is never refused. -/
theorem writeAttribute_text (s : Session) (r : Ref) (w : String × String) :
    s.writeAttribute r (.text w.1) (.text w.2) = .ok (s.update r (·.write w)) :=
  rfl

theorem adopt_eq (s : Session) (r d : Ref) :
    s.adopt r d =
      if (s.objectAt r).cls.isContainer then .ok (s.update r (·.addChild d))
      else .error (.missing ⟨(s.objectAt r).cls, "add_child"⟩) :=
  rfl

/-! Entities in the store. -/

theorem view_of_childrenAt_eq_nil (h : s.childrenAt d = []) (depth : Nat) :
    view s.objects depth d = (s.objectAt d).toEntity [] := by
  cases depth with
  | zero => rfl
  | succ depth =>
    have children : (s.objects.getD d default).children = [] := h
    rw [view, children]
    rfl

/-- An entity with children that have none. -/
theorem entityAt_eq (inside : r < s.objects.length)
    (leaves : ∀ d ∈ s.childrenAt r, s.childrenAt d = []) :
    s.entityAt r =
      (s.objectAt r).toEntity ((s.childrenAt r).map fun d => (s.objectAt d).toEntity []) := by
  obtain ⟨depth, hdepth⟩ : ∃ depth, s.objects.length = depth + 1 :=
    Nat.exists_eq_succ_of_ne_zero (Nat.ne_zero_of_lt inside)
  rw [entityAt, hdepth, view]
  have children : (s.childrenAt r).map (view s.objects depth) =
      (s.childrenAt r).map fun d => (s.objectAt d).toEntity [] :=
    List.map_congr_left fun d hd => view_of_childrenAt_eq_nil (leaves d hd) depth
  rw [← children]
  rfl

/-- An entity with children that have none is known by its object and by those of its children. -/
theorem entityAt_congr {s' : Session} (inside : r < s.objects.length)
    (inside' : r < s'.objects.length) (leaves : ∀ d ∈ s.childrenAt r, s.childrenAt d = [])
    (same : ∀ i ∈ r :: s.childrenAt r, s'.objectAt i = s.objectAt i) :
    s'.entityAt r = s.entityAt r := by
  have object : s'.objectAt r = s.objectAt r := same r (by simp)
  have children : s'.childrenAt r = s.childrenAt r := by rw [childrenAt, object, childrenAt]
  have below : ∀ d ∈ s.childrenAt r, s'.objectAt d = s.objectAt d :=
    fun d hd => same d (List.mem_cons_of_mem r hd)
  have leaves' : ∀ d ∈ s'.childrenAt r, s'.childrenAt d = [] := by
    intro d hd
    rw [children] at hd
    rw [childrenAt, below d hd]
    exact leaves d hd
  rw [entityAt_eq inside leaves, entityAt_eq inside' leaves', object, children]
  congr 1
  exact List.map_congr_left fun d hd => by rw [below d hd]

end Session

end TagOutline
