import TagOutline.Proofs.Entity.Attributes
import TagOutline.Proofs.Entity.Record
import TagOutline.Entity.Text

/-!
# Attributes and the last write

However attributes are written to an entity, by name or from a list of pairs, it has one for each
key: where and as the key was written first, with the value that was written last. That is what its
record, its HTML and every entity read from the pairs are made of. The order shows in all of them,
but where entities are compared it does not count.
-/

namespace TagOutline

/-- A key with the truth values taken as the integers one and zero. -/
def Key.asInteger : Key → Key
  | .bool b => .int (if b then 1 else 0)
  | k => k

/-- Of texts, integers, truth values and null, the same keys are equal ones, and besides `true` and
one, and `false` and zero. -/
theorem Key.same_iff_asInteger {j k : Key} (hj : ∀ x, j ≠ .float x) (hk : ∀ x, k ≠ .float x) :
    j.same k = true ↔ j.asInteger = k.asInteger := by
  rw [same_iff]
  cases j with
  | float x => exact absurd rfl (hj x)
  | _ =>
    cases k with
    | float x => exact absurd rfl (hk x)
    | _ => simp [identity, asInteger]

namespace Entity

variable {cls : EntityClass} {name v : Value} {attributes fields : Fields Value} {e : Entity}
  {ws : List (Key × Value)}

/-! Attributes that are written one after another. -/

def addEntries (e : Entity) (ws : List (Key × Value)) : Entity :=
  ws.foldl (fun e w => e.addAttribute w.1 w.2) e

theorem addEntries_concat (e : Entity) (ws : List (Key × Value)) (w : Key × Value) :
    e.addEntries (ws ++ [w]) = (e.addEntries ws).addAttribute w.1 w.2 := by
  simp [addEntries]

/-- A new entity gets the attributes that the writes lead to. -/
theorem addEntries_new (cls : EntityClass) (name : Value) (ws : List (Key × Value)) :
    (new cls name).addEntries ws = ⟨cls, name, Fields.ofList ws, []⟩ := by
  induction ws using List.reverseRecOn with
  | nil => rfl
  | append_singleton ws w ih =>
    rw [addEntries_concat, ih, Fields.ofList_concat]
    rfl

/-! Attributes that are read from a list of pairs. -/

/-- An attribute as an element of a list of attributes. -/
def pair (w : Key × Value) : Value :=
  .list [.ofKey w.1, w.2]

theorem attributeOf_pair (index : Nat) (w : Key × Value) : attributeOf index (pair w) = .ok w := by
  simp [attributeOf, pair, Value.elements?]

theorem writePairs_pairs (m : Fields Value) (index : Nat) (ws : List (Key × Value)) :
    writePairs m index (ws.map pair) = .ok (m.putAll ws) := by
  induction ws generalizing m index with
  | nil => rfl
  | cons w ws ih =>
    rw [List.map_cons, writePairs, attributeOf_pair]
    exact ih (m.put w.1 w.2) (index + 1)

/-- Pairs are written as attributes are. -/
theorem readAttributes_of_pairs
    (given : fields.named? "attributes" = some (.list (ws.map pair))) :
    readAttributes fields = .ok (Fields.ofList ws) := by
  cases ws with
  | nil =>
    simp only [readAttributes, Value.present?, given, Value.isAbsent, Option.filter, List.map_nil,
      List.isEmpty_nil]
    rfl
  | cons w ws =>
    simp only [readAttributes, Value.present?, given, Value.isAbsent, Option.filter, List.map_cons,
      List.isEmpty_cons, Bool.not_false, if_true, Value.elements?]
    exact writePairs_pairs [] 0 (w :: ws)

theorem readBody_of_pairs (named : fields.named? "name" = some name)
    (given : fields.named? "attributes" = some (.list (ws.map pair))) :
    readBody (.record fields) = .ok (name, Fields.ofList ws, fields) := by
  rw [readBody, named]
  simp only [readAttributes_of_pairs given]

section Body

variable (body : readBody v = .ok (name, attributes, fields))
include body

/-- Whatever its children are, an entity has the name and the attributes that were read. -/
theorem body_of_ofValue (read : ofValue cls v = .ok e) :
    e.name = name ∧ e.attributes = attributes := by
  rw [ofValue] at read
  split at read
  · rw [readContainer, body] at read
    cases elements : childElements fields with
    | error error =>
      simp only [elements] at read
      cases read
    | ok ds =>
      cases children : ds.mapM (readChild cls.childClass) with
      | error error =>
        simp only [elements, children] at read
        cases read
      | ok cs =>
        simp only [elements, children] at read
        cases read
        exact ⟨rfl, rfl⟩
  · rw [readChild, body] at read
    cases read
    exact ⟨rfl, rfl⟩

theorem ofValue_of_childless (none : cls.isContainer = true → childElements fields = .ok []) :
    ofValue cls v = .ok ⟨cls, name, attributes, []⟩ := by
  rw [ofValue]
  split
  next container =>
    rw [readContainer, body]
    simp only [none container]
    rfl
  next => rw [readChild, body]

end Body

theorem rebuild_eq_ok_iff : rebuild cls v = .ok e ↔ cls ≠ .base ∧ ofValue cls v = .ok e := by
  rw [rebuild]
  by_cases base : cls = .base
  · simp [base]
  · rw [if_neg base]
    cases ofValue cls v with
    | error error => simp [Except.mapError]
    | ok d => simp [Except.mapError, base]

/-! Attributes that are compared. -/

/-- Entities are compared by their attributes in whatever order these were written. -/
theorem same_iff_sameEntries {a b : Entity} (written : b.attributes = Fields.ofList ws) :
    a.same b = true ↔ a.cls = b.cls ∧ a.name.same b.name = true ∧
      sameChildren a.children b.children = true ∧ a.attributes.SameEntries b.attributes := by
  have distinct := Fields.pairwise_ofList ws
  rw [← written] at distinct
  rw [same_iff, Value.sameMaps_iff distinct, and_comm (a := a.attributes.SameEntries b.attributes)]

/-- What is there to see of the writes `ws` in an entity that they were made to when it was new. -/
structure KeepsLastWrites (cls : EntityClass) (name : Value) (ws : List (Key × Value))
    (e : Entity) : Prop where
  /-- The attributes are the keys as they were written first, with the values written last. -/
  whole : e = ⟨cls, name, Fields.lastWritten ws, []⟩
  /-- There is one attribute for each key. -/
  once : (e.attributes.Pairwise fun f g => f.1.same g.1 = false) ∧
    ∀ k, (∃ f ∈ e.attributes, f.1.same k = true) ↔ ∃ w ∈ ws, w.1.same k = true
  /-- They are in the record of the entity. -/
  record : e.toValue = .record ([(.text "name", name),
    (.text "attributes", .record (Fields.lastWritten ws))] ++
      if cls.isContainer then [(.text "children", .list [])] else [])
  /-- They are in its HTML, but for those that are left out. -/
  html : ∀ ignored, attributesHtml ignored e.attributes =
    " ".intercalate (((Fields.lastWritten ws).filter fun a => !ignored.any a.1.same).map fun a =>
      Value.plainKey a.1 ++ "=\"" ++ a.2.plain ++ "\"")
  /-- An entity that is read from a record with the pairs of the writes has the same attributes. A
  record without children can be read, and the entity is this one. -/
  pairs : ∀ fields : Fields Value, fields.named? "name" = some name →
    fields.named? "attributes" = some (.list (ws.map pair)) →
      (∀ d, rebuild cls (.record fields) = .ok d →
        d.name = name ∧ d.attributes = e.attributes) ∧
      (cls ≠ .base → (cls.isContainer = true → childElements fields = .ok []) →
        rebuild cls (.record fields) = .ok e)
  /-- Entities with such attributes are equal if they have the same entries and agree in all
  else. -/
  compared : ∀ (vs : List (Key × Value)) (a b : Entity), a.attributes = e.attributes →
    b.attributes = Fields.lastWritten vs →
      (a.same b = true ↔ a.cls = b.cls ∧ a.name.same b.name = true ∧
        sameChildren a.children b.children = true ∧ a.attributes.SameEntries b.attributes)
  /-- So they are equal if they agree in all but the order of the entries and the spelling of their
  keys. -/
  reordered : (∀ w ∈ ws, w.2.IsWellFormed) →
    ∀ (vs : List (Key × Value)) (a b : Entity), a.attributes = e.attributes →
      b.attributes = Fields.lastWritten vs →
      (a.attributes.map fun f => (f.1.identity, f.2)).Perm
        (b.attributes.map fun f => (f.1.identity, f.2)) →
      a.cls = b.cls → a.name.same b.name = true → sameChildren a.children b.children = true →
        a.same b = true

/-- The law of attributes. A new entity to which attributes are written has one for each key, in the
order and in the spelling in which the keys were written first, with the values that were written
last. Keys are the same if they are equal where truth values are taken as integers. Its record and
its HTML show these attributes, and so does an entity that is read from the pairs of the writes.
Where entities are compared, only the entries count and not their order. -/
theorem attributes_keepLastWrites (cls : EntityClass) (name : Value) (ws : List (Key × Value)) :
    (∀ j k : Key, (∀ x, j ≠ .float x) → (∀ x, k ≠ .float x) →
      (j.same k = true ↔ j.asInteger = k.asInteger)) ∧
    KeepsLastWrites cls name ws ((new cls name).addEntries ws) := by
  refine ⟨fun j k => Key.same_iff_asInteger, ?_⟩
  rw [addEntries_new]
  have written : Fields.ofList ws = Fields.lastWritten ws := Fields.ofList_eq_lastWritten ws
  have compared {vs : List (Key × Value)} {a b : Entity}
      (other : b.attributes = Fields.lastWritten vs) :=
    same_iff_sameEntries (a := a) (other.trans (Fields.ofList_eq_lastWritten vs).symm)
  refine ⟨by rw [written], ?_, ?_, ?_, ?_, ?_, ?_⟩
  · exact ⟨Fields.pairwise_ofList ws, Fields.exists_same_ofList_iff ws⟩
  · rw [written]
    rfl
  · intro ignored
    rw [written]
    rfl
  · intro fields named given
    have body := readBody_of_pairs named given
    refine ⟨?_, ?_⟩
    · intro d read
      exact body_of_ofValue body (rebuild_eq_ok_iff.mp read).2
    · intro able none
      exact rebuild_eq_ok_iff.mpr ⟨able, ofValue_of_childless body none⟩
  · intro vs a b _ other
    exact compared other
  · intro values vs a b own other order cls name children
    have sound : ∀ f ∈ a.attributes, True ∧ f.2.IsWellFormed := by
      rw [own]
      exact Fields.forall_ofList (P := fun _ => True) fun w hw => ⟨trivial, values w hw⟩
    have entries := Fields.sameEntries_of_perm (fun f hf => (sound f hf).2) order
    exact (compared other).mpr ⟨cls, name, children, entries⟩

/-- Seven writes under four keys. The key `true` stays where one is written, and zero where `false`
is, and the same entries in another order and in other spellings make an equal entity. -/
theorem attributes_keepLastWrites_mixed_keys :
    let ws : List (Key × Value) := [(.bool true, .text "a"), (.text "x", .text "b"),
      (.int 1, .text "c"), (.null, .text "d"), (.int 0, .text "e"), (.bool false, .text "f"),
      (.text "x", .text "g")]
    let vs : List (Key × Value) := [(.null, .text "d"), (.bool false, .text "f"),
      (.int 1, .text "c"), (.text "x", .text "g")]
    let e := (new .form (.text "A")).addEntries ws
    e.attributes = [(.bool true, .text "c"), (.text "x", .text "g"), (.null, .text "d"),
        (.int 0, .text "f")] ∧
      attributesHtml [] e.attributes = "True=\"c\" x=\"g\" None=\"d\" 0=\"f\"" ∧
      rebuild .form (.record [(.text "attributes", .list (ws.map pair)), (.text "name", .text "A")]) =
        .ok e ∧
      e.same ((new .form (.text "A")).addEntries vs) = true := by
  intro ws vs e
  obtain ⟨-, law⟩ := attributes_keepLastWrites .form (.text "A") ws
  obtain ⟨-, other⟩ := attributes_keepLastWrites .form (.text "A") vs
  have sound : ∀ w ∈ ws, w.2.IsWellFormed := by
    simp only [ws, List.forall_mem_cons, List.not_mem_nil, false_implies, implies_true, and_true]
    exact ⟨.text _, .text _, .text _, .text _, .text _, .text _, .text _⟩
  have attributes : e.attributes = [(.bool true, .text "c"), (.text "x", .text "g"),
      (.null, .text "d"), (.int 0, .text "f")] :=
    (congrArg Entity.attributes law.whole).trans rfl
  have read := (law.pairs [(.text "attributes", .list (ws.map pair)), (.text "name", .text "A")]
    rfl rfl).2 (by decide) fun _ => rfl
  refine ⟨attributes, (law.html []).trans rfl, read, ?_⟩
  refine law.reordered sound vs e _ rfl (by rw [other.whole]) ?_ rfl rfl rfl
  -- the two halves of the entries have changed places
  exact @List.perm_append_comm (Key.Identity × Value)
    [(.integer 1, .text "c"), (.text "x", .text "g")] [(.null, .text "d"), (.integer 0, .text "f")]

end Entity

end TagOutline
