import TagOutline.Entity.Record
import TagOutline.Proofs.Data.Value

/-!
# Entities and their records

What is read from the record of an entity. The name and the attributes come back as they are, and
the children in their order, in the class that the wanted class gives its children. So an entity is
read as itself in its own class, if its children have the class that it gives them, and reading it
in another class of containers changes classes and nothing else.
-/

namespace TagOutline.Entity

/-- A name and attributes that JSON holds. -/
structure HasJsonBody (e : Entity) : Prop where
  name : e.name.IsJson
  attributes : (Value.record e.attributes).IsJson

/-- An entity that JSON holds. Only a container has children, and these are no containers and have
no children of their own. -/
structure IsStorable (e : Entity) : Prop extends e.HasJsonBody where
  able : e.children ≠ [] → e.cls.isContainer = true
  children : ∀ d ∈ e.children, d.cls.isContainer = false ∧ d.children = [] ∧ d.HasJsonBody

/-- An entity in another class, with its children in the class that this one gives them. -/
def recast (cls : EntityClass) (e : Entity) : Entity :=
  ⟨cls, e.name, e.attributes, e.children.map fun d => ⟨cls.childClass, d.name, d.attributes, []⟩⟩

theorem mk_eq (e : Entity) : ⟨e.cls, e.name, e.attributes, e.children⟩ = e := by
  cases e
  rfl

theorem isContainer_childClass (cls : EntityClass) : cls.childClass.isContainer = false := by
  cases cls <;> rfl

theorem toValues_eq_map (es : List Entity) : toValues es = es.map toValue := by
  induction es with
  | nil => rfl
  | cons e es ih => rw [toValues, ih, List.map_cons]

theorem toValue_of_leaf {e : Entity} (h : e.cls.isContainer = false) :
    e.toValue = .record [(.text "name", e.name), (.text "attributes", .record e.attributes)] := by
  obtain ⟨cls, name, fields, children⟩ := e
  have hcls : cls.isContainer = false := h
  simp [toValue, hcls]

theorem toValue_of_container {e : Entity} (h : e.cls.isContainer = true) :
    e.toValue = .record [(.text "name", e.name), (.text "attributes", .record e.attributes),
      (.text "children", .list (e.children.map toValue))] := by
  obtain ⟨cls, name, fields, children⟩ := e
  have hcls : cls.isContainer = true := h
  simp [toValue, hcls, toValues_eq_map]

/-! Reading records. -/

theorem readAttributes_of_named {fields as : Fields Value}
    (h : fields.named? "attributes" = some (.record as)) : readAttributes fields = .ok as := by
  cases as with
  | nil => simp [readAttributes, Value.present?, h, Value.isAbsent, Option.filter]
  | cons a as => simp [readAttributes, Value.present?, h, Value.isAbsent, Option.filter]

theorem readBody_toValue (e : Entity) :
    ∃ fields, e.toValue = .record fields ∧
      readBody e.toValue = .ok (e.name, e.attributes, fields) := by
  cases h : e.cls.isContainer with
  | false =>
    refine ⟨_, toValue_of_leaf h, ?_⟩
    rw [toValue_of_leaf h, readBody, readAttributes_of_named rfl]
    rfl
  | true =>
    refine ⟨_, toValue_of_container h, ?_⟩
    rw [toValue_of_container h, readBody, readAttributes_of_named rfl]
    rfl

/-- The record of an entity is read as a child of any class. -/
theorem readChild_toValue (cls : EntityClass) (e : Entity) :
    readChild cls e.toValue = .ok ⟨cls, e.name, e.attributes, []⟩ := by
  obtain ⟨fields, -, body⟩ := readBody_toValue e
  rw [readChild, body]

/-- The records of several entities are read one by one. -/
theorem mapM_toValue {ε : Type} {read : Value → Except ε Entity} {found : Entity → Entity}
    {es : List Entity} (h : ∀ e ∈ es, read e.toValue = .ok (found e)) :
    (es.map toValue).mapM read = .ok (es.map found) := by
  induction es with
  | nil => rfl
  | cons e es ih =>
    have others := ih fun d hd => h d (by simp [hd])
    rw [List.map_cons, List.mapM_cons, h e (by simp), others]
    rfl

theorem childElements_toValue {e : Entity} (h : e.cls.isContainer = true) {fields : Fields Value}
    (record : e.toValue = .record fields) :
    childElements fields = .ok (e.children.map toValue) := by
  rw [toValue_of_container h] at record
  rw [← Value.record.inj record, childElements]
  cases hd : e.children with
  | nil => simp [Value.present?, Fields.named?, Fields.get?, Value.isAbsent, Option.filter]
  | cons d ds =>
    simp [Value.present?, Fields.named?, Fields.get?, Value.isAbsent, Option.filter,
      Value.elements?]

/-- The record of a container is read as a container of any class. -/
theorem ofValue_toValue {e : Entity} (h : e.cls.isContainer = true) {cls : EntityClass}
    (wanted : cls.isContainer = true) : ofValue cls e.toValue = .ok (e.recast cls) := by
  obtain ⟨fields, record, body⟩ := readBody_toValue e
  have children := mapM_toValue fun d (_ : d ∈ e.children) => readChild_toValue cls.childClass d
  rw [ofValue, if_pos wanted, readContainer, body]
  simp only [childElements_toValue h record, children]
  rfl

/-- Nothing changes in its own class, if the children have the class that it gives them. -/
theorem recast_self {e : Entity}
    (h : ∀ d ∈ e.children, d.cls = e.cls.childClass ∧ d.children = []) :
    e.recast e.cls = e := by
  have same : (e.children.map fun d => (⟨e.cls.childClass, d.name, d.attributes, []⟩ : Entity)) =
      e.children := by
    conv_rhs => rw [← List.map_id e.children]
    apply List.map_congr_left
    intro d hd
    obtain ⟨hcls, hnone⟩ := h d hd
    rw [← hcls, ← hnone]
    exact d.mk_eq
  rw [recast, same, mk_eq]

/-- An entity is read as itself in its own class. -/
theorem ofValue_toValue_self {e : Entity} (able : e.children ≠ [] → e.cls.isContainer = true)
    (h : ∀ d ∈ e.children, d.cls = e.cls.childClass ∧ d.children = []) :
    ofValue e.cls e.toValue = .ok e := by
  cases hcls : e.cls.isContainer with
  | true => rw [ofValue_toValue hcls hcls, recast_self h]
  | false =>
    have childless : e.children = [] := by
      by_contra hne
      rw [able hne] at hcls
      cases hcls
    rw [ofValue, if_neg (by simp [hcls]), readChild_toValue, ← childless, mk_eq]

/-- The record says nothing of classes, as long as it is that of a container with children that are
none. -/
theorem toValue_recast {e : Entity} (h : e.cls.isContainer = true)
    (children : ∀ d ∈ e.children, d.cls.isContainer = false) {cls : EntityClass}
    (wanted : cls.isContainer = true) : (e.recast cls).toValue = e.toValue := by
  have same : (e.recast cls).children.map toValue = e.children.map toValue := by
    rw [recast, List.map_map]
    apply List.map_congr_left
    intro d hd
    show toValue ⟨cls.childClass, d.name, d.attributes, []⟩ = toValue d
    rw [toValue_of_leaf (isContainer_childClass cls), toValue_of_leaf (children d hd)]
  rw [toValue_of_container (e := e.recast cls) wanted, same, toValue_of_container h]
  rfl

/-! Records that JSON holds. -/

theorem HasJsonBody.isJson_toValue {e : Entity} (h : e.HasJsonBody)
    (leaf : e.cls.isContainer = false) :
    e.toValue.IsJson := by
  rw [toValue_of_leaf leaf]
  refine .record (by simp) (by simp) ?_
  intro f hf
  rcases List.mem_cons.mp hf with rfl | hf
  · exact h.name
  · rw [List.mem_singleton.mp hf]
    exact h.attributes

theorem IsStorable.isJson_toValue {e : Entity} (h : e.IsStorable) : e.toValue.IsJson := by
  cases hcls : e.cls.isContainer with
  | false => exact h.toHasJsonBody.isJson_toValue hcls
  | true =>
    have children : (Value.list (e.children.map toValue)).IsJson := by
      refine .list fun x hx => ?_
      obtain ⟨d, hd, rfl⟩ := List.mem_map.mp hx
      obtain ⟨leaf, -, body⟩ := h.children d hd
      exact body.isJson_toValue leaf
    rw [toValue_of_container hcls]
    refine .record (by simp) (by simp) ?_
    intro f hf
    simp only [List.mem_cons, List.not_mem_nil, or_false] at hf
    rcases hf with rfl | rfl | rfl
    · exact h.name
    · exact h.attributes
    · exact children

/-! An entity that JSON holds is equal to itself. -/

theorem same_iff {a b : Entity} : a.same b = true ↔ a.cls = b.cls ∧ a.name.same b.name = true ∧
    Value.sameMaps a.attributes b.attributes = true ∧ sameChildren a.children b.children = true := by
  obtain ⟨cls, name, attributes, children⟩ := a
  simp [same, and_assoc]

theorem HasJsonBody.same_self {e : Entity} (h : e.HasJsonBody)
    (children : sameChildren e.children e.children = true) : e.same e = true := by
  have attributes : Value.sameMaps e.attributes e.attributes = true := by
    have whole := h.attributes.same_self
    rwa [Value.same] at whole
  exact same_iff.mpr ⟨rfl, h.name.same_self, attributes, children⟩

theorem sameChildren_self {es : List Entity} (h : ∀ e ∈ es, e.same e = true) :
    sameChildren es es = true := by
  induction es with
  | nil => rfl
  | cons e es ih =>
    rw [sameChildren, h e (by simp), ih fun d hd => h d (by simp [hd])]
    rfl

theorem IsStorable.same_self {e : Entity} (h : e.IsStorable) : e.same e = true := by
  apply h.toHasJsonBody.same_self
  apply sameChildren_self
  intro d hd
  obtain ⟨-, none, body⟩ := h.children d hd
  apply body.same_self
  rw [none]
  rfl

end TagOutline.Entity
