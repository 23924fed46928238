import TagOutline.Entity.Heap
import TagOutline.Proofs.Entity.Conversion
import TagOutline.Proofs.Entity.Frame

/-!
# Records in a heap

A heap shows the session in which every object holds the attributes that its map has. The record of
an entity says what the entity is in the session. All its maps are new, so nothing that was there
refers to one of them.
-/

namespace TagOutline

namespace Heap

/-- An object with its attributes. -/
def stored (h : Heap) (o : HeapObject) : StoredEntity :=
  ⟨o.cls, o.name, h.mapAt o.attributes, o.children⟩

/-- The session that a heap shows. -/
def toSession (h : Heap) : Session :=
  ⟨h.objects.map h.stored, h.names⟩

/-- Every object has a map of its own. -/
structure IsSeparate (h : Heap) : Prop where
  inside : ∀ o ∈ h.objects, o.attributes < h.maps.length
  distinct : (h.objects.map HeapObject.attributes).Nodup

/-- A heap with more maps. -/
structure AddsMaps (h h' : Heap) : Prop where
  objects : h'.objects = h.objects
  names : h'.names = h.names
  maps : ∃ ms, h'.maps = h.maps ++ ms

end Heap

namespace HeapRecord

variable {look look' : Ref → Fields Value}

/-! The fields of a record. -/

theorem values_eq_map (look : Ref → Fields Value) (ds : List HeapRecord) :
    values look ds = (ds.map (fields look)).map Value.record := by
  induction ds with
  | nil => rfl
  | cons d ds ih => rw [values, ih, List.map_cons, List.map_cons]

mutual

theorem fields_congr : ∀ d : HeapRecord, (∀ a ∈ d.maps, look' a = look a) →
    d.fields look' = d.fields look
  | leaf name attributes, same => by
    rw [fields, fields, same attributes (by simp [maps])]
  | container name attributes children, same => by
    have others := values_congr children fun a ha => same a (by simp [maps, ha])
    rw [fields, fields, same attributes (by simp [maps]), others]

theorem values_congr : ∀ ds : List HeapRecord, (∀ a ∈ mapsOf ds, look' a = look a) →
    values look' ds = values look ds
  | [], _ => rfl
  | d :: ds, same => by
    have first := fields_congr d fun a ha => same a (by simp [mapsOf, ha])
    have others := values_congr ds fun a ha => same a (by simp [mapsOf, ha])
    rw [values, values, first, others]

end

theorem bodyIn_fields (look : Ref → Fields Value) (d : HeapRecord) :
    Entity.bodyIn (d.fields look) = (some d.name, look d.attributes) := by
  cases d <;> rfl

theorem hasAttributes_fields (look : Ref → Fields Value) (d : HeapRecord) :
    Entity.HasAttributes (d.fields look) := by
  intro v hv
  cases d with
  | leaf name attributes => exact Or.inr ⟨_, (Option.some.inj hv).symm⟩
  | container name attributes children => exact Or.inr ⟨_, (Option.some.inj hv).symm⟩

theorem childrenIn_fields (look : Ref → Fields Value) (d : HeapRecord) :
    Entity.childrenIn (d.fields look) = d.children.map (fields look) := by
  cases d with
  | leaf name attributes => rfl
  | container name attributes children =>
    show (values look children).map Entity.fieldsOf = children.map (fields look)
    simp [values_eq_map, Function.comp_def, Entity.fieldsOf]

theorem hasChildren_fields (look : Ref → Fields Value) (d : HeapRecord) :
    Entity.HasChildren (d.fields look) := by
  intro v hv
  cases d with
  | leaf name attributes => cases hv
  | container name attributes children =>
    refine Or.inr ⟨children.map (fields look), ?_, ?_⟩
    · rw [← values_eq_map]
      exact (Option.some.inj hv).symm
    · intro fs hfs
      obtain ⟨c, -, rfl⟩ := List.mem_map.mp hfs
      exact hasAttributes_fields look c

/-- The entity of a class that a record is read as. -/
def toEntity (look : Ref → Fields Value) (cls : EntityClass) (d : HeapRecord) : Entity :=
  ⟨cls, d.name, look d.attributes,
    if cls.isContainer then
      d.children.map fun c => ⟨cls.childClass, c.name, look c.attributes, []⟩
    else []⟩

theorem rebuild_fields {cls : EntityClass} (readable : cls ≠ .base) (look : Ref → Fields Value)
    (d : HeapRecord) :
    Entity.rebuild cls (.record (d.fields look)) = .ok (d.toEntity look cls) := by
  have read : Entity.ofValue cls (.record (d.fields look)) = .ok (d.toEntity look cls) := by
    by_cases wanted : cls.isContainer = true
    · rw [Entity.ofValue_record_eq_ok_iff wanted (hasAttributes_fields look d)
        (hasChildren_fields look d)]
      refine ⟨rfl, (bodyIn_fields look d).symm, ?_, ?_⟩
      · rw [childrenIn_fields, toEntity, if_pos wanted, List.map_map, List.map_map]
        exact List.map_congr_left fun c _ => (bodyIn_fields look c).symm
      · intro c hc
        rw [toEntity, if_pos wanted] at hc
        obtain ⟨c, -, rfl⟩ := List.mem_map.mp hc
        exact ⟨rfl, rfl⟩
    · rw [Entity.ofValue, if_neg wanted, Entity.readChild_eq_ok_iff (hasAttributes_fields look d)]
      exact ⟨(bodyIn_fields look d).symm, rfl, if_neg wanted⟩
  rw [Entity.rebuild, if_neg readable, read]
  rfl

end HeapRecord

namespace Heap

variable {h h' h₁ : Heap} {cls : EntityClass} {r a : Ref}

/-! More maps. -/

theorem maps_append_trans (first : ∃ ms, h₁.maps = h.maps ++ ms)
    (second : ∃ ms, h'.maps = h₁.maps ++ ms) : ∃ ms, h'.maps = h.maps ++ ms := by
  obtain ⟨ms, hms⟩ := first
  obtain ⟨ms', hms'⟩ := second
  refine ⟨ms ++ ms', ?_⟩
  rw [hms', hms, List.append_assoc]

namespace AddsMaps

theorem refl (h : Heap) : h.AddsMaps h :=
  ⟨rfl, rfl, [], (List.append_nil _).symm⟩

theorem trans (first : h.AddsMaps h₁) (second : h₁.AddsMaps h') : h.AddsMaps h' :=
  ⟨second.objects.trans first.objects, second.names.trans first.names,
    maps_append_trans first.maps second.maps⟩

theorem newMap (h : Heap) (fields : Fields Value) : h.AddsMaps (h.newMap fields).1 :=
  ⟨rfl, rfl, [fields], rfl⟩

theorem length_le (more : h.AddsMaps h') : h.maps.length ≤ h'.maps.length := by
  obtain ⟨ms, hms⟩ := more.maps
  rw [hms, List.length_append]
  omega

end AddsMaps

/-- What was there stays when maps are added behind it. -/
theorem mapAt_of_append {ms : List (Fields Value)} (more : h'.maps = h.maps ++ ms)
    (inside : a < h.maps.length) : h'.mapAt a = h.mapAt a := by
  rw [mapAt, mapAt, more, List.getD_eq_getElem?_getD, List.getD_eq_getElem?_getD,
    List.getElem?_append_left inside]

theorem AddsMaps.mapAt (more : h.AddsMaps h') (inside : a < h.maps.length) :
    h'.mapAt a = h.mapAt a := by
  obtain ⟨ms, hms⟩ := more.maps
  exact mapAt_of_append hms inside

@[simp] theorem mapAt_newMap (h : Heap) (fields : Fields Value) :
    (h.newMap fields).1.mapAt (h.newMap fields).2 = fields := by
  simp [newMap, mapAt]

/-- A heap shows what another one shows if their objects have the same attributes. -/
theorem toSession_congr (objects : h'.objects = h.objects) (names : h'.names = h.names)
    (same : ∀ o ∈ h.objects, h'.mapAt o.attributes = h.mapAt o.attributes) :
    h'.toSession = h.toSession := by
  rw [toSession, toSession, objects, names]
  congr 1
  apply List.map_congr_left
  intro o ho
  rw [stored, stored, same o ho]

theorem AddsMaps.toSession (more : h.AddsMaps h') (separate : h.IsSeparate) :
    h'.toSession = h.toSession :=
  toSession_congr more.objects more.names fun o ho => more.mapAt (separate.inside o ho)

theorem AddsMaps.isSeparate (more : h.AddsMaps h') (separate : h.IsSeparate) : h'.IsSeparate where
  inside := by
    intro o ho
    rw [more.objects] at ho
    exact Nat.lt_of_lt_of_le (separate.inside o ho) more.length_le
  distinct := by
    rw [more.objects]
    exact separate.distinct

@[simp] theorem length_toSession (h : Heap) : h.toSession.objects.length = h.objects.length := by
  simp [toSession]

theorem objectAt_toSession (inside : r < h.objects.length) :
    h.toSession.objectAt r = h.stored (h.objectAt r) := by
  simp [Session.objectAt, toSession, objectAt, List.getD_eq_getElem?_getD, inside]

/-! Taking records. -/

/-- The record of an entity was taken: it says what the entity is, its maps are new, and nothing
else has changed. -/
structure IsTaken (h : Heap) (e : Entity) (taken : Heap × HeapRecord) : Prop where
  adds : h.AddsMaps taken.1
  shows : e.toValue = .record (taken.2.fields taken.1.mapAt)
  fresh : ∀ a ∈ taken.2.maps, h.maps.length ≤ a ∧ a < taken.1.maps.length

theorem inTurn_isTaken {take : Heap → Ref → Heap × HeapRecord} {entity : Ref → Entity}
    {rs : List Ref} (each : ∀ h', h.AddsMaps h' → ∀ r ∈ rs, IsTaken h' (entity r) (take h' r)) :
    h.AddsMaps (inTurn take h rs).1 ∧
      (rs.map entity).map Entity.toValue =
        HeapRecord.values (inTurn take h rs).1.mapAt (inTurn take h rs).2 ∧
      ∀ a ∈ HeapRecord.mapsOf (inTurn take h rs).2,
        h.maps.length ≤ a ∧ a < (inTurn take h rs).1.maps.length := by
  induction rs generalizing h with
  | nil =>
    refine ⟨AddsMaps.refl h, rfl, ?_⟩
    intro a ha
    cases ha
  | cons r rs ih =>
    have first := each h (AddsMaps.refl h) r (by simp)
    obtain ⟨adds, shows, fresh⟩ := ih fun h' more r hr =>
      each h' (first.adds.trans more) r (List.mem_cons_of_mem _ hr)
    refine ⟨first.adds.trans adds, ?_, ?_⟩
    · have kept := HeapRecord.fields_congr (take h r).2
        fun a ha => adds.mapAt (first.fresh a ha).2
      rw [List.map_cons, List.map_cons, shows, first.shows, ← kept]
      rfl
    · intro a ha
      rcases List.mem_append.mp ha with ha | ha
      · obtain ⟨new, inside⟩ := first.fresh a ha
        exact ⟨new, Nat.lt_of_lt_of_le inside adds.length_le⟩
      · obtain ⟨new, inside⟩ := fresh a ha
        exact ⟨Nat.le_trans first.adds.length_le new, inside⟩

/-- The record of an entity without children to show is taken with a copy of its attributes. -/
theorem isTaken_leaf (leaf : cls.isContainer = false) (name : Value) (attributes : Fields Value)
    (children : List Entity) :
    IsTaken h ⟨cls, name, attributes, children⟩
      ((h.newMap attributes).1, .leaf name (h.newMap attributes).2) where
  adds := AddsMaps.newMap h attributes
  shows := by
    rw [Entity.toValue_of_leaf leaf, HeapRecord.fields, mapAt_newMap]
  fresh := by
    intro a ha
    obtain rfl := List.mem_singleton.mp ha
    simp [newMap]

/-- The record of a container is taken with a copy of its attributes and the records of its
children. -/
theorem isTaken_container (container : cls.isContainer = true) {name : Value}
    {attributes : Fields Value} {children : List Entity} {ds : List HeapRecord}
    (adds : (h.newMap attributes).1.AddsMaps h')
    (shows : children.map Entity.toValue = HeapRecord.values h'.mapAt ds)
    (fresh : ∀ a ∈ HeapRecord.mapsOf ds, h.maps.length ≤ a ∧ a < h'.maps.length) :
    IsTaken h ⟨cls, name, attributes, children⟩
      (h', .container name (h.newMap attributes).2 ds) where
  adds := (AddsMaps.newMap h attributes).trans adds
  shows := by
    have copied : h'.mapAt (h.newMap attributes).2 = attributes := by
      rw [adds.mapAt (by simp [newMap]), mapAt_newMap]
    rw [Entity.toValue_of_container container, HeapRecord.fields, copied, ← shows]
  fresh := by
    intro a ha
    rcases List.mem_cons.mp ha with rfl | ha
    · have longer := adds.length_le
      rw [newMap, List.length_append, List.length_singleton] at longer
      exact ⟨Nat.le_refl _, longer⟩
    · exact fresh a ha

theorem takeRecord_isTaken (separate : h.IsSeparate) (closed : h.toSession.IsClosed)
    (inside : r < h.objects.length) (depth : Nat) :
    IsTaken h (Session.view h.toSession.objects depth r) (h.takeRecord depth r) := by
  induction depth generalizing h r with
  | zero =>
    have object := objectAt_toSession inside
    rw [Session.objectAt] at object
    rw [Session.view, object, takeRecord]
    cases container : (h.objectAt r).cls.isContainer with
    | false => exact isTaken_leaf container _ _ _
    | true =>
      exact isTaken_container container (AddsMaps.refl _) rfl fun a ha => by cases ha
  | succ depth ih =>
    have object := objectAt_toSession inside
    have children : h.toSession.childrenAt r = (h.objectAt r).children := by
      rw [Session.childrenAt, object, stored]
    rw [Session.objectAt] at object
    rw [Session.view, object, takeRecord]
    cases container : (h.objectAt r).cls.isContainer with
    | false => exact isTaken_leaf container _ _ _
    | true =>
      have copied := AddsMaps.newMap h (h.mapAt (h.objectAt r).attributes)
      have each : ∀ h', (h.newMap (h.mapAt (h.objectAt r).attributes)).1.AddsMaps h' →
          ∀ c ∈ (h.objectAt r).children,
            IsTaken h' (Session.view h.toSession.objects depth c) (h'.takeRecord depth c) := by
        intro h' more c hc
        have added := copied.trans more
        rw [← added.toSession separate]
        have there : c < h'.objects.length := by
          rw [added.objects, ← length_toSession]
          exact closed.children r c (children ▸ hc)
        refine ih (added.isSeparate separate) ?_ there
        rw [added.toSession separate]
        exact closed
      obtain ⟨adds, shows, fresh⟩ := inTurn_isTaken each
      refine isTaken_container container adds shows fun a ha => ?_
      obtain ⟨new, last⟩ := fresh a ha
      exact ⟨Nat.le_trans copied.length_le new, last⟩

end Heap

end TagOutline
