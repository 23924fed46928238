import TagOutline.Proofs.Entity.HeapRecord

/-!
# Heaps and sessions

No two objects of a heap come to refer to one map, for what is made gets maps of its own and records
only refer to copies. So a heap shows the session that takes the same steps, whatever is done to the
maps of records.
-/

namespace TagOutline.Heap

variable {h h' : Heap} {cls : EntityClass} {r a : Ref}

/-! Making entities. -/

/-- What was made in a heap is what is made in the session that the heap shows, and maps were only
added. -/
structure IsMade {α : Type} (h : Heap) (shown : Session × α) (made : Heap × α) : Prop where
  shows : made.1.toSession = shown.1
  same : made.2 = shown.2
  separate : made.1.IsSeparate
  maps : ∃ ms, made.1.maps = h.maps ++ ms

theorem newEntity_isMade (separate : h.IsSeparate) (cls : EntityClass) (name : Value)
    (fields : Fields Value) {children refs : List Ref} (same : children = refs) :
    IsMade h (h.toSession.insert ⟨cls, name, fields, refs⟩)
      (h.newEntity cls name fields children) where
  shows := by
    subst same
    have kept : ∀ o ∈ h.objects, (h.newEntity cls name fields children).1.stored o = h.stored o := by
      intro o ho
      rw [stored, stored, mapAt_of_append rfl (separate.inside o ho)]
    have last : (h.newEntity cls name fields children).1.stored ⟨cls, name, h.maps.length, children⟩ =
        ⟨cls, name, fields, children⟩ := by
      rw [stored]
      congr 1
      exact mapAt_newMap h fields
    show Session.mk ((h.objects ++ [_]).map _) h.names = Session.mk (h.objects.map h.stored ++ [_]) _
    rw [List.map_append, List.map_congr_left kept]
    congr 2
    exact congrArg (fun o => [o]) last
  same := (length_toSession h).symm
  separate := by
    refine ⟨?_, ?_⟩
    · intro o ho
      have longer : (h.newEntity cls name fields children).1.maps.length = h.maps.length + 1 := by
        simp [newEntity, newMap]
      rw [longer]
      rcases List.mem_append.mp ho with ho | ho
      · exact Nat.lt_succ_of_lt (separate.inside o ho)
      · obtain rfl := List.mem_singleton.mp ho
        exact Nat.lt_succ_self _
    · show ((h.objects ++ [_]).map HeapObject.attributes).Nodup
      rw [List.map_append, List.nodup_append]
      refine ⟨separate.distinct, List.nodup_singleton _, ?_⟩
      intro a ha b hb
      obtain ⟨o, ho, rfl⟩ := List.mem_map.mp ha
      obtain rfl := List.mem_singleton.mp hb
      exact Nat.ne_of_lt (separate.inside o ho)
  maps := ⟨[fields], rfl⟩

mutual

theorem insertEntity_isMade (h : Heap) (separate : h.IsSeparate) : ∀ e : Entity,
    IsMade h (h.toSession.insertEntity e) (h.insertEntity e)
  | ⟨cls, name, attributes, children⟩ => by
    have first := insertAll_isMade h separate children
    have last := newEntity_isMade first.separate cls name attributes first.same
    rw [first.shows] at last
    rw [insertEntity, Session.insertEntity]
    exact ⟨last.shows, last.same, last.separate, maps_append_trans first.maps last.maps⟩

theorem insertAll_isMade (h : Heap) (separate : h.IsSeparate) : ∀ es : List Entity,
    IsMade h (h.toSession.insertAll es) (h.insertAll es)
  | [] => by
    rw [insertAll, Session.insertAll]
    exact ⟨rfl, rfl, separate, [], (List.append_nil _).symm⟩
  | e :: es => by
    have first := insertEntity_isMade h separate e
    have others := insertAll_isMade (h.insertEntity e).1 first.separate es
    rw [first.shows] at others
    rw [insertAll, Session.insertAll]
    exact ⟨others.shows, congrArg₂ List.cons first.same others.same, others.separate,
      maps_append_trans first.maps others.maps⟩

end

theorem maps_newEntity (h : Heap) (cls : EntityClass) (name : Value) (fields : Fields Value)
    (children : List Ref) :
    (h.newEntity cls name fields children).1.maps = h.maps ++ [fields] :=
  rfl

theorem inTurn_cons {α β : Type} (make : Heap → α → Heap × β) (h : Heap) (x : α) (xs : List α) :
    inTurn make h (x :: xs) =
      ((inTurn make (make h x).1 xs).1, (make h x).2 :: (inTurn make (make h x).1 xs).2) :=
  rfl

theorem insertAll_cons (h : Heap) (e : Entity) (es : List Entity) :
    h.insertAll (e :: es) =
      (((h.insertEntity e).1.insertAll es).1,
        (h.insertEntity e).2 :: ((h.insertEntity e).1.insertAll es).2) := by
  rw [insertAll]

/-- To make children out of records is to add what the records are read as. -/
theorem inTurn_makeChild {ds : List HeapRecord} (inside : ∀ d ∈ ds, d.attributes < h.maps.length)
    (cls : EntityClass) : inTurn (makeChild cls) h ds =
      h.insertAll (ds.map fun d => ⟨cls, d.name, h.mapAt d.attributes, []⟩) := by
  induction ds generalizing h with
  | nil => rfl
  | cons d ds ih =>
    have kept : ∀ d' ∈ ds, (h.makeChild cls d).1.mapAt d'.attributes = h.mapAt d'.attributes :=
      fun d' hd' => mapAt_of_append rfl (inside d' (List.mem_cons_of_mem _ hd'))
    have others : ∀ d' ∈ ds, d'.attributes < (h.makeChild cls d).1.maps.length := by
      intro d' hd'
      rw [makeChild, maps_newEntity, List.length_append]
      exact Nat.lt_add_right _ (inside d' (List.mem_cons_of_mem _ hd'))
    have read : (ds.map fun d' =>
          (⟨cls, d'.name, (h.makeChild cls d).1.mapAt d'.attributes, []⟩ : Entity)) =
        ds.map fun d' => ⟨cls, d'.name, h.mapAt d'.attributes, []⟩ :=
      List.map_congr_left fun d' hd' => by rw [kept d' hd']
    have first : h.insertEntity ⟨cls, d.name, h.mapAt d.attributes, []⟩ = h.makeChild cls d := by
      rw [insertEntity, insertAll, makeChild]
    rw [inTurn_cons, ih others, read, List.map_cons, insertAll_cons, first]

theorem attributes_mem_maps (d : HeapRecord) : d.attributes ∈ d.maps := by
  cases d <;> simp [HeapRecord.maps, HeapRecord.attributes]

theorem mem_maps_of_mem_children {d c : HeapRecord} (hc : c ∈ d.children) : c.attributes ∈ d.maps := by
  cases d with
  | leaf name attributes => cases hc
  | container name attributes children =>
    have listed : ∀ ds : List HeapRecord, c ∈ ds → c.attributes ∈ HeapRecord.mapsOf ds := by
      intro ds hds
      induction ds with
      | nil => cases hds
      | cons d ds ih =>
        rcases List.mem_cons.mp hds with rfl | hds
        · exact List.mem_append_left _ (attributes_mem_maps c)
        · exact List.mem_append_right _ (ih hds)
    exact List.mem_cons_of_mem _ (listed children hc)

/-- To make an entity out of a record is to add what the record is read as. -/
theorem makeEntity_eq (h : Heap) (separate : h.IsSeparate) (cls : EntityClass) {d : HeapRecord}
    (inside : ∀ a ∈ d.maps, a < h.maps.length) :
    h.makeEntity cls d = h.insertEntity (d.toEntity h.mapAt cls) := by
  rw [makeEntity, HeapRecord.toEntity]
  by_cases container : cls.isContainer = true
  · have made := inTurn_makeChild (fun c hc => inside _ (mem_maps_of_mem_children hc) :
      ∀ c ∈ d.children, c.attributes < h.maps.length) (cls.childClass)
    have kept (es : List Entity) : (h.insertAll es).1.mapAt d.attributes = h.mapAt d.attributes := by
      obtain ⟨ms, hms⟩ := (insertAll_isMade h separate es).maps
      exact mapAt_of_append hms (inside _ (attributes_mem_maps d))
    rw [if_pos container, if_pos container, insertEntity, made]
    simp only [kept]
  · rw [if_neg container, if_neg container, insertEntity, insertAll, makeChild]

/-! Writing. -/

theorem mapAt_writeMap_self (inside : a < h.maps.length) (f : Fields Value → Fields Value) :
    (h.writeMap f a).mapAt a = f (h.mapAt a) := by
  simp [mapAt, writeMap, List.getD_eq_getElem?_getD, inside]

theorem mapAt_writeMap_of_ne {b : Ref} (other : b ≠ a) (f : Fields Value → Fields Value) :
    (h.writeMap f a).mapAt b = h.mapAt b := by
  simp [mapAt, writeMap, List.getD_eq_getElem?_getD, Ne.symm other]

/-- What is written to a map that no object has is not seen. -/
theorem toSession_writeMap_of_fresh (fresh : ∀ o ∈ h.objects, o.attributes ≠ a)
    (f : Fields Value → Fields Value) : (h.writeMap f a).toSession = h.toSession :=
  toSession_congr rfl rfl fun o ho => mapAt_writeMap_of_ne (fresh o ho) f

theorem isSeparate_writeMap (separate : h.IsSeparate) (f : Fields Value → Fields Value) (a : Ref) :
    (h.writeMap f a).IsSeparate where
  inside := by
    intro o ho
    simpa [writeMap] using separate.inside o ho
  distinct := separate.distinct

/-- What is written to the map of an object is written to the object in the session. -/
theorem toSession_writeMap (separate : h.IsSeparate) (inside : r < h.objects.length)
    (f : Fields Value → Fields Value) :
    (h.writeMap f (h.objectAt r).attributes).toSession =
      h.toSession.update r fun o => { o with attributes := f o.attributes } := by
  have here : h.objects[r]? = some (h.objectAt r) := by
    simp [objectAt, List.getD_eq_getElem?_getD, inside]
  show Session.mk (h.objects.map _) h.names = Session.mk ((h.objects.map h.stored).modify r _) h.names
  congr 1
  apply List.ext_getElem?
  intro i
  rw [List.getElem?_map]
  by_cases same : r = i
  · subst same
    have map := separate.inside _ (List.mem_of_getElem? here)
    rw [List.getElem?_modify_eq, List.getElem?_map, here, Option.map_some, Option.map_some, stored,
      mapAt_writeMap_self map]
    rfl
  · rw [List.getElem?_modify_ne _ _ same, List.getElem?_map]
    cases there : h.objects[i]? with
    | none => rfl
    | some o =>
      -- two objects with one map are one object
      have other : o.attributes ≠ (h.objectAt r).attributes := by
        intro shared
        have inside' : r < (h.objects.map HeapObject.attributes).length := by simpa using inside
        apply same
        rw [← List.getElem?_inj inside' separate.distinct, List.getElem?_map, List.getElem?_map,
          here, there, Option.map_some, Option.map_some, shared]
      rw [Option.map_some, Option.map_some, stored, stored, mapAt_writeMap_of_ne other]

theorem map_modify {α β : Type} {f : α → β} {g : α → α} {g' : β → β}
    (same : ∀ x, f (g x) = g' (f x)) (l : List α) (i : Nat) :
    (l.modify i g).map f = (l.map f).modify i g' := by
  apply List.ext_getElem?
  intro j
  rw [List.getElem?_map]
  by_cases here : i = j
  · subst here
    rw [List.getElem?_modify_eq, List.getElem?_modify_eq, List.getElem?_map]
    cases l[i]? with
    | none => rfl
    | some x => exact congrArg some (same x)
  · rw [List.getElem?_modify_ne _ _ here, List.getElem?_modify_ne _ _ here, List.getElem?_map]

theorem toSession_addChild (h : Heap) (r c : Ref) :
    (h.addChild r c).toSession = h.toSession.update r (·.addChild c) := by
  show Session.mk ((h.objects.modify r _).map h.stored) h.names =
    Session.mk ((h.objects.map h.stored).modify r _) h.names
  congr 1
  apply map_modify
  intro o
  rfl

theorem isSeparate_addChild (separate : h.IsSeparate) (r c : Ref) :
    (h.addChild r c).IsSeparate := by
  have attributes : (h.addChild r c).objects.map HeapObject.attributes =
      h.objects.map HeapObject.attributes := by
    have kept := map_modify (fun _ => rfl :
      ∀ o : HeapObject, { o with children := o.children ++ [c] }.attributes = id o.attributes)
      h.objects r
    rw [List.modify_id] at kept
    exact kept
  refine ⟨?_, ?_⟩
  · intro o ho
    have listed : o.attributes ∈ h.objects.map HeapObject.attributes := by
      rw [← attributes]
      exact List.mem_map_of_mem ho
    obtain ⟨o', ho', same⟩ := List.mem_map.mp listed
    rw [← same]
    exact separate.inside o' ho'
  · rw [attributes]
    exact separate.distinct

/-- What is done to maps that no object has is not seen. -/
theorem foldl_writeMap (separate : h.IsSeparate) (edit : Fields Value → Fields Value) {as : List Ref}
    (fresh : ∀ a ∈ as, ∀ o ∈ h.objects, o.attributes ≠ a) :
    (as.foldl (fun h a => h.writeMap edit a) h).toSession = h.toSession ∧
      (as.foldl (fun h a => h.writeMap edit a) h).IsSeparate := by
  induction as generalizing h with
  | nil => exact ⟨rfl, separate⟩
  | cons a as ih =>
    obtain ⟨shows, separate'⟩ := ih (isSeparate_writeMap separate edit a)
      fun b hb => fresh b (List.mem_cons_of_mem _ hb)
    exact ⟨shows.trans (toSession_writeMap_of_fresh (fresh a (by simp)) edit), separate'⟩

/-! Steps. -/

/-- A heap shows a session, and its objects share no map. -/
structure Shows (h : Heap) (s : Session) : Prop where
  shows : h.toSession = s
  separate : h.IsSeparate

theorem store_shows (separate : h.IsSeparate) (id : String) (e : Entity) :
    (h.store id e).Shows (h.toSession.store id e) := by
  have made := insertEntity_isMade h separate e
  refine ⟨?_, made.separate.inside, made.separate.distinct⟩
  show (h.insertEntity e).1.toSession.bindName id (h.insertEntity e).2 =
    (h.toSession.insertEntity e).1.bindName id (h.toSession.insertEntity e).2
  rw [made.shows, made.same]

theorem recordOf_isTaken (separate : h.IsSeparate) (closed : h.toSession.IsClosed)
    (inside : r < h.objects.length) : IsTaken h (h.toSession.entityAt r) (h.recordOf r) := by
  rw [Session.entityAt, length_toSession]
  exact takeRecord_isTaken separate closed inside h.objects.length

theorem alterRecord_shows (separate : h.IsSeparate) (closed : h.toSession.IsClosed)
    (inside : r < h.objects.length) (edit : Fields Value → Fields Value) :
    ((h.recordOf r).1.alter edit (h.recordOf r).2).Shows h.toSession := by
  have taken := recordOf_isTaken separate closed inside
  have fresh : ∀ a ∈ (h.recordOf r).2.maps, ∀ o ∈ (h.recordOf r).1.objects, o.attributes ≠ a := by
    intro a ha o ho
    rw [taken.adds.objects] at ho
    exact Nat.ne_of_lt (Nat.lt_of_lt_of_le (separate.inside o ho) (taken.fresh a ha).1)
  obtain ⟨shows, separate'⟩ := foldl_writeMap (taken.adds.isSeparate separate) edit fresh
  exact ⟨shows.trans (taken.adds.toSession separate), separate'⟩

/-- An entity is made out of the record of another one, as a session makes it out of its value. -/
theorem convert_shows (separate : h.IsSeparate) (closed : h.toSession.IsClosed)
    (inside : r < h.objects.length) (readable : cls ≠ .base) (id : String) :
    ∃ e, Entity.rebuild cls (h.toSession.entityAt r).toValue = .ok e ∧
      (((h.recordOf r).1.makeEntity cls (h.recordOf r).2).1.bindName id
        ((h.recordOf r).1.makeEntity cls (h.recordOf r).2).2).Shows (h.toSession.store id e) := by
  have taken := recordOf_isTaken separate closed inside
  refine ⟨(h.recordOf r).2.toEntity (h.recordOf r).1.mapAt cls, ?_, ?_⟩
  · rw [taken.shows]
    exact HeapRecord.rebuild_fields readable _ _
  · have separate₁ := taken.adds.isSeparate separate
    rw [makeEntity_eq _ separate₁ cls fun a ha => (taken.fresh a ha).2,
      ← taken.adds.toSession separate]
    exact store_shows separate₁ id _

theorem lt_of_ref? (closed : h.toSession.IsClosed) {id : String} (named : h.ref? id = some r) :
    r < h.objects.length := by
  rw [← length_toSession]
  exact closed.names _ (Session.mem_names_of_ref? named)

section Step

variable (edit : Fields Value → Fields Value) (separate : h.IsSeparate)
include separate

theorem step_store_shows {t : SessionStep} {id : String} {e : Entity}
    (changed : h.toSession.change t = .ok (h.toSession.store id e)) :
    (h.store id e).Shows (h.toSession.step t).1 := by
  rw [Session.step_of_change changed]
  exact store_shows separate id e

theorem step_failed_shows {t : SessionStep} {error : SessionError}
    (failed : h.toSession.change t = .error error) : h.Shows (h.toSession.step t).1 := by
  rw [Session.step_of_failed failed]
  exact ⟨rfl, separate⟩

theorem step_kept_shows {t : SessionStep} (changed : h.toSession.change t = .ok h.toSession) :
    h.Shows (h.toSession.step t).1 := by
  rw [Session.step_of_change changed]
  exact ⟨rfl, separate⟩

variable (closed : h.toSession.IsClosed)
include closed

theorem step_attribute_shows (id : String) (key value : Value) :
    (h.step edit (.attribute id key value)).Shows
      (h.toSession.step (.attribute id key value)).1 := by
  rw [step]
  cases named : h.ref? id with
  | none => exact step_failed_shows separate (Session.withRef_of_none named)
  | some r =>
    have inside := lt_of_ref? closed named
    have change : h.toSession.change (.attribute id key value) = _ :=
      Session.withRef_of_ref? named
    cases hk : key.toKey? with
    | none =>
      rw [Session.writeAttribute, hk] at change
      exact step_failed_shows separate change
    | some k =>
      rw [Session.writeAttribute, hk] at change
      rw [Session.step_of_change change]
      exact ⟨toSession_writeMap separate inside _, isSeparate_writeMap separate _ _⟩

theorem step_adopt_shows (id child : String) :
    (h.step edit (.adopt id child)).Shows (h.toSession.step (.adopt id child)).1 := by
  rw [step]
  cases named : h.ref? id with
  | none => exact step_failed_shows separate (Session.withRef_of_none named)
  | some r =>
    have inside := lt_of_ref? closed named
    have change : h.toSession.change (.adopt id child) = _ := Session.withRef_of_ref? named
    cases given : h.ref? child with
    | none => exact step_failed_shows separate (change.trans (Session.withRef_of_none given))
    | some c =>
      have change := change.trans (Session.withRef_of_ref? given)
      rw [Session.adopt_eq, objectAt_toSession inside] at change
      by_cases able : (h.objectAt r).cls.isContainer = true
      · rw [Session.step_of_change (change.trans (if_pos able))]
        simp only [if_pos able]
        exact ⟨toSession_addChild h r c, isSeparate_addChild separate r c⟩
      · simp only [if_neg able]
        exact step_failed_shows separate (change.trans (if_neg able))

theorem step_convert_shows (id source : String) (cls : EntityClass) :
    (h.step edit (.convert id source cls)).Shows
      (h.toSession.step (.convert id source cls)).1 := by
  rw [step]
  by_cases base : cls = .base
  · have failed : h.toSession.change (.convert id source cls) = _ := if_pos base
    simp only [if_pos base]
    cases h.ref? source with
    | none => exact step_failed_shows separate failed
    | some r => exact step_failed_shows separate failed
  · have change : h.toSession.change (.convert id source cls) = _ := if_neg base
    simp only [if_neg base]
    cases named : h.ref? source with
    | none =>
      exact step_failed_shows separate (change.trans (Session.withRef_of_none named))
    | some r =>
      have inside := lt_of_ref? closed named
      have change := change.trans (Session.withEntity_of_ref? named)
      obtain ⟨e, rebuilt, shows⟩ := convert_shows separate closed inside base id
      rw [rebuilt] at change
      rw [Session.step_of_change change]
      exact shows

theorem step_alterRecord_shows (id : String) :
    (h.step edit (.alterRecord id)).Shows (h.toSession.step (.alterRecord id)).1 := by
  rw [step, Session.step_of_change rfl]
  cases named : h.ref? id with
  | none => exact ⟨rfl, separate⟩
  | some r => exact alterRecord_shows separate closed (lt_of_ref? closed named) edit

theorem step_toJson_shows (id : String) (indent : Option Int) :
    (h.step edit (.toJson id indent)).Shows (h.toSession.step (.toJson id indent)).1 := by
  rw [step, Session.step_of_change rfl]
  cases named : h.ref? id with
  | none => exact ⟨rfl, separate⟩
  | some r =>
    have taken := recordOf_isTaken separate closed (lt_of_ref? closed named)
    exact ⟨taken.adds.toSession separate, taken.adds.isSeparate separate⟩

/-- A step of a heap is shown as the step of the session that the heap shows. -/
theorem step_shows (t : SessionStep) : (h.step edit t).Shows (h.toSession.step t).1 := by
  cases t with
  | create id cls name =>
    rw [step]
    exact step_store_shows separate rfl
  | «attribute» id key value => exact step_attribute_shows edit separate closed id key value
  | adopt id child => exact step_adopt_shows edit separate closed id child
  | convert id source cls => exact step_convert_shows edit separate closed id source cls
  | read id cls text =>
    rw [step]
    cases read : Entity.ofJson cls text with
    | ok e => exact step_store_shows separate (by rw [Session.change, read])
    | error error => exact step_failed_shows separate (by rw [Session.change, read])
  | alterRecord id => exact step_alterRecord_shows edit separate closed id
  | toJson id indent => exact step_toJson_shows edit separate closed id indent
  | toHtml | describe | compare => exact step_kept_shows separate rfl

end Step

/-- A run of a heap is shown as the run of the session that the heap shows. -/
theorem after_shows (edit : Fields Value → Fields Value) (separate : h.IsSeparate)
    (closed : h.toSession.IsClosed) (steps : List SessionStep) :
    (h.after edit steps).Shows (h.toSession.after steps) := by
  induction steps generalizing h with
  | nil => exact ⟨rfl, separate⟩
  | cons t steps ih =>
    have first := step_shows edit separate closed t
    have closed' : (h.step edit t).toSession.IsClosed := by
      rw [first.shows]
      exact (Session.isChange_step h.toSession t).isClosed closed
    have others := ih first.separate closed'
    rw [first.shows] at others
    exact others

theorem isSeparate_empty : empty.IsSeparate where
  inside := by
    intro o ho
    cases ho
  distinct := List.nodup_nil

/-- What identifiers name in a heap is what they name in a session. -/
theorem empty_after_shows (edit : Fields Value → Fields Value) (steps : List SessionStep) :
    (empty.after edit steps).Shows (Session.empty.after steps) :=
  after_shows edit isSeparate_empty Session.isClosed_empty steps

end TagOutline.Heap
