import TagOutline.Proofs.Entity.Record

/-!
# Conversion between classes

Reading the record of a container in another class changes classes and nothing else, so going back
gives the container back. Records that were not made from entities are read by what they say: a
name, attributes and the same of their children. Parts that are missing, null or empty say the same,
all other fields say nothing, and what is missing is a name or nothing. An entity that was read is
what its own record is read as.
-/

namespace TagOutline.Entity

/-- The attributes of a record are missing, null or a record. -/
def HasAttributes (fields : Fields Value) : Prop :=
  ∀ v, fields.named? "attributes" = some v → v = .null ∨ ∃ as, v = .record as

/-- The children of a record are missing, null or a list of records with attributes. -/
def HasChildren (fields : Fields Value) : Prop :=
  ∀ v, fields.named? "children" = some v →
    v = .null ∨
      ∃ ds : List (Fields Value), v = .list (ds.map .record) ∧ ∀ d ∈ ds, HasAttributes d

/-- The attributes that a record gives. -/
def attributesIn (fields : Fields Value) : Fields Value :=
  match fields.named? "attributes" with
  | some (.record as) => as
  | _ => []

/-- The fields of a value that is a record. -/
def fieldsOf : Value → Fields Value
  | .record fields => fields
  | _ => []

/-- The records of the children that a record gives. -/
def childrenIn (fields : Fields Value) : List (Fields Value) :=
  match fields.named? "children" with
  | some (.list ds) => ds.map fieldsOf
  | _ => []

/-- What a record says about an entity, apart from its children. -/
def bodyIn (fields : Fields Value) : Option Value × Fields Value :=
  (fields.named? "name", attributesIn fields)

/-- The name and the attributes of an entity. -/
def body (e : Entity) : Option Value × Fields Value :=
  (some e.name, e.attributes)

/-- A record or one of those of its children has no name. -/
def LacksName (fields : Fields Value) : Prop :=
  fields.named? "name" = none ∨ ∃ d ∈ childrenIn fields, Fields.named? "name" d = none

/-- Two records say the same about a container. -/
structure SaysTheSame (fields fields' : Fields Value) : Prop where
  body : bodyIn fields' = bodyIn fields
  children : (childrenIn fields').map bodyIn = (childrenIn fields).map bodyIn

/-- A container of a class with all that a record says, and nothing more. -/
structure IsReadAs (wanted : EntityClass) (fields : Fields Value) (e : Entity) : Prop where
  ofClass : e.cls = wanted
  body : e.body = bodyIn fields
  children : e.children.map Entity.body = (childrenIn fields).map bodyIn
  leaves : ∀ c ∈ e.children, c.cls = wanted.childClass ∧ c.children = []

variable {cls : EntityClass} {fields fields' : Fields Value} {e : Entity}

/-! Reading records. -/

theorem readAttributes_of_hasAttributes (h : HasAttributes fields) :
    readAttributes fields = .ok (attributesIn fields) := by
  cases given : fields.named? "attributes" with
  | none => simp [readAttributes, attributesIn, Value.present?, given]
  | some v =>
    rcases h v given with rfl | ⟨as, rfl⟩
    · simp [readAttributes, attributesIn, Value.present?, given, Value.isAbsent, Option.filter]
    · rw [readAttributes_of_named given, attributesIn, given]

theorem childElements_of_hasChildren (h : HasChildren fields) :
    childElements fields = .ok ((childrenIn fields).map .record) ∧
      ∀ d ∈ childrenIn fields, HasAttributes d := by
  cases given : fields.named? "children" with
  | none => simp [childElements, childrenIn, Value.present?, given]
  | some v =>
    rcases h v given with rfl | ⟨ds, rfl, attributes⟩
    · simp [childElements, childrenIn, Value.present?, given, Value.isAbsent, Option.filter]
    · have records : childrenIn fields = ds := by
        simp [childrenIn, given, Function.comp_def, fieldsOf]
      rw [records]
      refine ⟨?_, attributes⟩
      cases ds with
      | nil => simp [childElements, Value.present?, given, Value.isAbsent, Option.filter]
      | cons d ds =>
        simp [childElements, Value.present?, given, Value.isAbsent, Option.filter, Value.elements?]

theorem readBody_of_hasAttributes (h : HasAttributes fields) :
    readBody (.record fields) =
      match fields.named? "name" with
      | none => .error .missingName
      | some name => .ok (name, attributesIn fields, fields) := by
  rw [readBody]
  cases fields.named? "name" with
  | none => rfl
  | some name => rw [readAttributes_of_hasAttributes h]

theorem readChild_eq_ok_iff (h : HasAttributes fields) :
    readChild cls (.record fields) = .ok e ↔
      e.body = bodyIn fields ∧ e.cls = cls ∧ e.children = [] := by
  obtain ⟨c, name, attributes, children⟩ := e
  rw [readChild, readBody_of_hasAttributes h, body, bodyIn]
  cases fields.named? "name" with
  | none => simp
  | some n =>
    simp only [Except.ok.injEq, mk.injEq, Prod.mk.injEq, Option.some.injEq]
    constructor
    · rintro ⟨rfl, rfl, rfl, rfl⟩
      exact ⟨⟨rfl, rfl⟩, rfl, rfl⟩
    · rintro ⟨⟨rfl, rfl⟩, rfl, rfl⟩
      exact ⟨rfl, rfl, rfl, rfl⟩

theorem readChild_of_error (h : HasAttributes fields) {error : RecordError}
    (failed : readChild cls (.record fields) = .error error) :
    error = .missingName ∧ fields.named? "name" = none := by
  rw [readChild, readBody_of_hasAttributes h] at failed
  cases given : fields.named? "name" with
  | none =>
    rw [given] at failed
    exact ⟨(Except.error.inj failed).symm, rfl⟩
  | some name =>
    rw [given] at failed
    cases failed

/-- The children are read from their records one by one. -/
theorem mapM_readChild_eq_ok_iff {ds : List (Fields Value)} {cs : List Entity}
    (h : ∀ d ∈ ds, HasAttributes d) :
    (ds.map Value.record).mapM (readChild cls) = .ok cs ↔
      cs.map body = ds.map bodyIn ∧ ∀ c ∈ cs, c.cls = cls ∧ c.children = [] := by
  induction ds generalizing cs with
  | nil =>
    constructor
    · intro read
      cases read
      simp
    · rintro ⟨bodies, -⟩
      rw [List.map_eq_nil_iff.mp bodies]
      rfl
  | cons d ds ih =>
    have others (cs : List Entity) := @ih cs fun d hd => h d (List.mem_cons_of_mem _ hd)
    have first := @readChild_eq_ok_iff cls d
    rw [List.map_cons, List.mapM_cons, List.map_cons]
    constructor
    · intro read
      cases hd : readChild cls (.record d) with
      | error error =>
        rw [hd] at read
        cases read
      | ok c =>
        cases hds : (ds.map Value.record).mapM (readChild cls) with
        | error error =>
          rw [hd, hds] at read
          cases read
        | ok cs' =>
          rw [hd, hds] at read
          obtain rfl : c :: cs' = cs := Except.ok.inj read
          obtain ⟨bodies, leaves⟩ := (others cs').mp hds
          obtain ⟨same, leaf⟩ := (first (h d (by simp))).mp hd
          refine ⟨by rw [List.map_cons, same, bodies], ?_⟩
          intro x hx
          rcases List.mem_cons.mp hx with rfl | hx
          · exact leaf
          · exact leaves x hx
    · rintro ⟨bodies, leaves⟩
      cases cs with
      | nil => cases bodies
      | cons c cs =>
        obtain ⟨same, rest⟩ := List.cons.inj bodies
        have hd := (first (h d (by simp))).mpr ⟨same, leaves c (by simp)⟩
        have hds := (others cs).mpr ⟨rest, fun x hx => leaves x (List.mem_cons_of_mem _ hx)⟩
        rw [hd, hds]
        rfl

/-- Children cannot be read only if one of them has no name. -/
theorem mapM_readChild_of_error {ds : List (Fields Value)} {error : RecordError}
    (h : ∀ d ∈ ds, HasAttributes d)
    (failed : (ds.map Value.record).mapM (readChild cls) = .error error) :
    error = .missingName ∧ ∃ d ∈ ds, Fields.named? "name" d = none := by
  induction ds with
  | nil => cases failed
  | cons d ds ih =>
    rw [List.map_cons, List.mapM_cons] at failed
    cases hd : readChild cls (.record d) with
    | error first =>
      rw [hd] at failed
      obtain rfl := Except.error.inj failed
      obtain ⟨missing, none⟩ := readChild_of_error (h d (by simp)) hd
      exact ⟨missing, d, by simp, none⟩
    | ok c =>
      cases hds : (ds.map Value.record).mapM (readChild cls) with
      | ok cs =>
        rw [hd, hds] at failed
        cases failed
      | error later =>
        rw [hd, hds] at failed
        obtain rfl := Except.error.inj failed
        obtain ⟨missing, x, hx, none⟩ := ih (fun d hd => h d (List.mem_cons_of_mem _ hd)) hds
        exact ⟨missing, x, List.mem_cons_of_mem _ hx, none⟩

section Container

variable (wanted : cls.isContainer = true) (attributes : HasAttributes fields)
  (children : HasChildren fields)
include wanted attributes children

theorem ofValue_record : ofValue cls (.record fields) =
    match fields.named? "name" with
    | none => .error .missingName
    | some name =>
      match ((childrenIn fields).map Value.record).mapM (readChild cls.childClass) with
      | .error error => .error error
      | .ok cs => .ok ⟨cls, name, attributesIn fields, cs⟩ := by
  rw [ofValue, if_pos wanted, readContainer, readBody_of_hasAttributes attributes]
  cases fields.named? "name" with
  | none => rfl
  | some name =>
    have elements := (childElements_of_hasChildren children).1
    cases read : ((childrenIn fields).map Value.record).mapM (readChild cls.childClass) with
    | error error => simp only [elements, read]
    | ok cs => simp only [elements, read]

/-- A record is read as the container that it says. -/
theorem ofValue_record_eq_ok_iff :
    ofValue cls (.record fields) = .ok e ↔ IsReadAs cls fields e := by
  have each := (childElements_of_hasChildren children).2
  rw [ofValue_record wanted attributes children]
  constructor
  · intro read
    cases given : fields.named? "name" with
    | none =>
      rw [given] at read
      cases read
    | some name =>
      cases hcs : ((childrenIn fields).map Value.record).mapM (readChild cls.childClass) with
      | error error =>
        rw [given, hcs] at read
        cases read
      | ok cs =>
        rw [given, hcs] at read
        obtain rfl := Except.ok.inj read
        obtain ⟨bodies, leaves⟩ := (mapM_readChild_eq_ok_iff each).mp hcs
        exact ⟨rfl, by rw [body, bodyIn, given], bodies, leaves⟩
  · intro h
    obtain ⟨c, name, as, cs⟩ := e
    obtain rfl : c = cls := h.ofClass
    obtain ⟨given, rfl⟩ := Prod.mk.inj h.body
    have hcs := (mapM_readChild_eq_ok_iff each).mpr ⟨h.children, h.leaves⟩
    rw [← given, hcs]

/-- A record that cannot be read lacks a name. -/
theorem lacksName_of_error {error : RecordError}
    (failed : ofValue cls (.record fields) = .error error) :
    error = .missingName ∧ LacksName fields := by
  rw [ofValue_record wanted attributes children] at failed
  cases given : fields.named? "name" with
  | none =>
    rw [given] at failed
    exact ⟨(Except.error.inj failed).symm, Or.inl given⟩
  | some name =>
    cases hcs : ((childrenIn fields).map Value.record).mapM (readChild cls.childClass) with
    | ok cs =>
      rw [given, hcs] at failed
      cases failed
    | error first =>
      rw [given, hcs] at failed
      obtain rfl := Except.error.inj failed
      obtain ⟨missing, none⟩ :=
        mapM_readChild_of_error (childElements_of_hasChildren children).2 hcs
      exact ⟨missing, Or.inr none⟩

omit wanted attributes children in
theorem IsReadAs.not_lacksName (h : IsReadAs cls fields e) : ¬ LacksName fields := by
  rintro (none | ⟨d, hd, none⟩)
  · have given := (Prod.mk.inj h.body).1
    rw [none] at given
    cases given
  · have member : bodyIn d ∈ e.children.map Entity.body := by
      rw [h.children]
      exact List.mem_map_of_mem hd
    obtain ⟨c, -, same⟩ := List.mem_map.mp member
    have given := (Prod.mk.inj same).1
    rw [none] at given
    cases given

theorem exists_error_iff :
    (∃ error, ofValue cls (.record fields) = .error error) ↔ LacksName fields := by
  constructor
  · rintro ⟨error, failed⟩
    exact (lacksName_of_error wanted attributes children failed).2
  · intro lacks
    cases read : ofValue cls (.record fields) with
    | error error => exact ⟨error, rfl⟩
    | ok e =>
      have h := (ofValue_record_eq_ok_iff wanted attributes children).mp read
      exact absurd lacks h.not_lacksName

end Container

theorem SaysTheSame.lacksName (h : SaysTheSame fields fields') (lacks : LacksName fields) :
    LacksName fields' := by
  rcases lacks with none | ⟨d, hd, none⟩
  · exact Or.inl ((Prod.mk.inj h.body).1.trans none)
  · have member : bodyIn d ∈ (childrenIn fields').map bodyIn := by
      rw [h.children]
      exact List.mem_map_of_mem hd
    obtain ⟨d', hd', same⟩ := List.mem_map.mp member
    exact Or.inr ⟨d', hd', (Prod.mk.inj same).1.trans none⟩

theorem SaysTheSame.isReadAs (h : SaysTheSame fields fields') (read : IsReadAs cls fields e) :
    IsReadAs cls fields' e :=
  ⟨read.ofClass, read.body.trans h.body.symm, read.children.trans h.children.symm, read.leaves⟩

/-- What is read from a record is a matter of what the record says. -/
theorem ofValue_of_saysTheSame (wanted : cls.isContainer = true)
    (attributes : HasAttributes fields) (children : HasChildren fields)
    (attributes' : HasAttributes fields') (children' : HasChildren fields')
    (h : SaysTheSame fields fields') :
    ofValue cls (.record fields') = ofValue cls (.record fields) := by
  cases read : ofValue cls (.record fields) with
  | ok e =>
    rw [ofValue_record_eq_ok_iff wanted attributes children] at read
    exact (ofValue_record_eq_ok_iff wanted attributes' children').mpr (h.isReadAs read)
  | error error =>
    obtain ⟨rfl, lacks⟩ := lacksName_of_error wanted attributes children read
    obtain ⟨error, failed⟩ :=
      (exists_error_iff wanted attributes' children').mpr (h.lacksName lacks)
    obtain ⟨rfl, -⟩ := lacksName_of_error wanted attributes' children' failed
    exact failed

/-- Reading a container in a class of containers keeps its record and gives it the class, and its
children the class that this one has for them. In its own class it stays as it is, and so it does on
the way back from another one. A record fails to be read only for a name that is missing, otherwise
it is read as what it says, and the entity that was read is what its own record is read as. -/
theorem ofValue_normalises {cls : EntityClass} (wanted : cls.isContainer = true) :
    (∀ e : Entity, e.cls.isContainer = true →
      (∀ d ∈ e.children, d.cls.isContainer = false ∧ d.children = []) →
        ∃ e', ofValue cls e.toValue = .ok e' ∧ e'.cls = cls ∧
          (∀ d ∈ e'.children, d.cls = cls.childClass) ∧ e'.toValue = e.toValue ∧
          ((∀ d ∈ e.children, d.cls = e.cls.childClass) →
            (e.cls = cls → e' = e) ∧ ofValue e.cls e'.toValue = .ok e)) ∧
    ∀ fields, HasAttributes fields → HasChildren fields →
      ((∃ error, ofValue cls (.record fields) = .error error) ↔ LacksName fields) ∧
      (∀ error, ofValue cls (.record fields) = .error error →
        error = .missingName ∧ error.message = "'name'") ∧
      (∀ e, ofValue cls (.record fields) = .ok e ↔ IsReadAs cls fields e) ∧
      (∀ fields', HasAttributes fields' → HasChildren fields' → SaysTheSame fields fields' →
        ofValue cls (.record fields') = ofValue cls (.record fields)) ∧
      ∀ e, ofValue cls (.record fields) = .ok e → ofValue cls e.toValue = .ok e := by
  constructor
  · intro e container leaves
    have record := toValue_recast container (fun d hd => (leaves d hd).1) wanted
    refine ⟨e.recast cls, ofValue_toValue container wanted, rfl, ?_, record, ?_⟩
    · intro d hd
      obtain ⟨c, -, rfl⟩ := List.mem_map.mp hd
      rfl
    · intro classes
      have own : ∀ d ∈ e.children, d.cls = e.cls.childClass ∧ d.children = [] :=
        fun d hd => ⟨classes d hd, (leaves d hd).2⟩
      constructor
      · rintro rfl
        exact recast_self own
      · rw [record]
        exact ofValue_toValue_self (fun _ => container) own
  · intro fields attributes children
    refine ⟨exists_error_iff wanted attributes children, ?_,
      fun e => ofValue_record_eq_ok_iff wanted attributes children, ?_, ?_⟩
    · intro error failed
      obtain ⟨rfl, -⟩ := lacksName_of_error wanted attributes children failed
      exact ⟨rfl, rfl⟩
    · intro fields' attributes' children' same
      exact ofValue_of_saysTheSame wanted attributes children attributes' children' same
    · intro e read
      have h := (ofValue_record_eq_ok_iff wanted attributes children).mp read
      have classes : ∀ d ∈ e.children, d.cls = e.cls.childClass ∧ d.children = [] := by
        rw [h.ofClass]
        exact h.leaves
      have container : e.cls.isContainer = true := by rw [h.ofClass, wanted]
      have own := ofValue_toValue_self (fun _ => container) classes
      rw [h.ofClass] at own
      exact own

/-- A form that becomes a node and a form again, and records with a field of no meaning and with
attributes that are null, one of them with a child that has no name. -/
theorem ofValue_normalises_form :
    let form : Entity := ⟨.form, .text "login", [(.text "action", .text "/in")],
      [⟨.input, .text "user", [], []⟩]⟩
    let node : Entity := ⟨.node, .text "login", [(.text "action", .text "/in")],
      [⟨.property, .text "user", [], []⟩]⟩
    let child : Fields Value := [(.text "name", .text "user"), (.text "attributes", .null)]
    let children : Key × Value := (.text "children", .list [.record child])
    let attributes : Key × Value := (.text "attributes", .record [(.text "action", .text "/in")])
    let named : Fields Value :=
      [(.text "x", .bool true), children, (.text "name", .text "login"), attributes]
    let nameless : Fields Value :=
      [(.text "name", .text "login"), (.text "children", .list [.record child, .record []])]
    (ofValue .node form.toValue = .ok node ∧ ofValue .form node.toValue = .ok form) ∧
      (ofValue .node (.record named) = .ok node ∧ ofValue .node node.toValue = .ok node) ∧
      ∃ error, ofValue .node (.record nameless) = .error error := by
  intro form node child children attributes named nameless
  have wanted : EntityClass.node.isContainer = true := rfl
  obtain ⟨entities, records⟩ := ofValue_normalises wanted
  have converted : ofValue .node form.toValue = .ok node := rfl
  have attributesOk : HasAttributes child := by
    intro v hv
    obtain rfl : Value.null = v := Option.some.inj hv
    exact Or.inl rfl
  refine ⟨⟨converted, ?_⟩, ?_, ?_⟩
  · have leaves : ∀ d ∈ form.children, d.cls.isContainer = false ∧ d.children = [] := by
      simp [form, EntityClass.isContainer]
    obtain ⟨node', read, -, -, -, back⟩ := entities form rfl leaves
    obtain rfl : node = node' := Except.ok.inj (converted.symm.trans read)
    exact (back (by simp [form, EntityClass.childClass])).2
  · have hattributes : HasAttributes named := by
      intro v hv
      obtain rfl : attributes.2 = v := Option.some.inj hv
      exact Or.inr ⟨_, rfl⟩
    have hchildren : HasChildren named := by
      intro v hv
      obtain rfl : children.2 = v := Option.some.inj hv
      exact Or.inr ⟨[child], rfl, by simpa using attributesOk⟩
    obtain ⟨-, -, readAs, -, again⟩ := records named hattributes hchildren
    have read : ofValue .node (.record named) = .ok node :=
      (readAs node).mpr ⟨rfl, rfl, rfl, by simp [node, EntityClass.childClass]⟩
    exact ⟨read, again node read⟩
  · have hattributes : HasAttributes nameless := by
      intro v hv
      cases hv
    have hchildren : HasChildren nameless := by
      intro v hv
      obtain rfl : Value.list [.record child, .record []] = v := Option.some.inj hv
      refine Or.inr ⟨[child, []], rfl, ?_⟩
      intro d hd
      rcases List.mem_cons.mp hd with rfl | hd
      · exact attributesOk
      · obtain rfl := List.mem_singleton.mp hd
        intro v hv
        cases hv
    have second : [] ∈ childrenIn nameless := by
      simp [nameless, childrenIn, fieldsOf, Fields.named?, Fields.get?]
    exact (records nameless hattributes hchildren).1.mpr (Or.inr ⟨[], second, rfl⟩)

end TagOutline.Entity
