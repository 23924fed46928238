import TagOutline.Outline.Draft
import TagOutline.Proofs.Data.Fields

/-!
# Attributes as written

The attributes of an entity are what writing them one after another leads to: each key once, in the
order in which the keys were written first, and under each key the value that was written last.
-/

namespace TagOutline

/-- An entity to which attributes are written one after another. -/
def Entity.addAttributes (e : Entity) (ws : List Write) : Entity :=
  ws.foldl (fun e w => e.addAttribute (.text w.1) (.text w.2)) e

theorem attributesOf_concat (ws : List Write) (w : Write) :
    attributesOf (ws ++ [w]) = (attributesOf ws).put (.text w.1) (.text w.2) := by
  rw [attributesOf, List.map_append]
  exact Fields.ofList_concat _ _

theorem Entity.addAttributes_concat (e : Entity) (ws : List Write) (w : Write) :
    e.addAttributes (ws ++ [w]) =
      (e.addAttributes ws).addAttribute (.text w.1) (.text w.2) := by
  simp [addAttributes]

/-- Attributes that are written to a new entity are its attributes. -/
theorem Entity.addAttributes_new (cls : EntityClass) (name : Value) (ws : List Write) :
    (Entity.new cls name).addAttributes ws = ⟨cls, name, attributesOf ws, []⟩ := by
  induction ws using List.reverseRecOn with
  | nil => rfl
  | append_singleton ws w ih =>
    rw [addAttributes_concat, ih, attributesOf_concat]
    rfl

/-- A child becomes a new entity with its attributes written to it. -/
theorem ChildDraft.toEntity_eq (cls : EntityClass) (d : ChildDraft) :
    d.toEntity cls = (Entity.new cls (.text d.name)).addAttributes d.writes := by
  rw [Entity.addAttributes_new]
  rfl

/-- A container becomes a new entity with its attributes written to it, and so do its children. -/
theorem ContainerDraft.toEntity_eq (o : OutlineOptions) (c : ContainerDraft) :
    c.toEntity o =
      { (Entity.new o.containerClass (.text c.name)).addAttributes c.writes with
        children := c.children.map fun d =>
          (Entity.new o.childClass (.text d.name)).addAttributes d.writes } := by
  rw [Entity.addAttributes_new]
  simp only [toEntity]
  congr 1
  exact List.map_congr_left fun d _ => d.toEntity_eq o.childClass

/-! What is done to a draft is done to its entity. -/

theorem ChildDraft.toEntity_write (cls : EntityClass) (d : ChildDraft) (w : Write) :
    (d.write w).toEntity cls = (d.toEntity cls).addAttribute (.text w.1) (.text w.2) := by
  simp only [toEntity, write, attributesOf_concat, Entity.addAttribute]

theorem ContainerDraft.toEntity_write (o : OutlineOptions) (c : ContainerDraft) (w : Write) :
    (c.write w).toEntity o = (c.toEntity o).addAttribute (.text w.1) (.text w.2) := by
  simp only [toEntity, write, attributesOf_concat, Entity.addAttribute]

theorem ContainerDraft.toEntity_addChild (o : OutlineOptions) (c : ContainerDraft)
    (d : ChildDraft) :
    (c.addChild d).toEntity o =
      { c.toEntity o with children := (c.toEntity o).children ++ [d.toEntity o.childClass] } := by
  simp [toEntity, addChild]

/-- Each key is there once, in the order of the first writing. -/
theorem keys_attributesOf (ws : List Write) :
    (attributesOf ws).map Prod.fst = (ws.map Prod.fst).eraseDups.map Key.text := by
  have same (s t : String) : (Key.text s).same (.text t) = (s == t) := by
    rw [Key.same_text, beq_eq_decide]
  rw [List.eraseDups, ← Fields.eraseDupsBy_map same, attributesOf, Fields.keys_ofList,
    Fields.firstKeys, List.map_map, List.map_map]
  rfl

/-- Under each key stands the value that was written last. -/
theorem named?_attributesOf (ws : List Write) (key : String) :
    (attributesOf ws).named? key = (ws.reverse.lookup key).map Value.text := by
  have same (w : Write) : (Key.text w.1).same (.text key) = (w.1 == key) := by
    rw [Key.same_text, beq_eq_decide]
  rw [Fields.named?, attributesOf, Fields.get?_ofList, Fields.lastUnder?, ← List.map_reverse,
    List.find?_map, Option.map_map]
  simp only [Function.comp_def, same]
  -- both look through the writes from the last one on
  induction ws.reverse with
  | nil => rfl
  | cons w ws ih =>
    rw [List.find?_cons, List.lookup_cons, Bool.beq_comm (a := w.1)]
    cases key == w.1 with
    | true => rfl
    | false => exact ih

/-- What holds of the written keys and values holds of the attributes. -/
theorem exists_text_of_mem_attributesOf {P Q : String → Prop} {ws : List Write}
    (h : ∀ w ∈ ws, P w.1 ∧ Q w.2) {e : Key × Value} (he : e ∈ attributesOf ws) :
    (∃ k, e.1 = .text k ∧ P k) ∧ ∃ v, e.2 = .text v ∧ Q v := by
  have hwritten : ∀ e ∈ ws.map fun w => (Key.text w.1, Value.text w.2),
      (∃ k, e.1 = .text k ∧ P k) ∧ ∃ v, e.2 = .text v ∧ Q v := by
    intro e he
    obtain ⟨w, hw, rfl⟩ := List.mem_map.mp he
    exact ⟨⟨w.1, rfl, (h w hw).1⟩, ⟨w.2, rfl, (h w hw).2⟩⟩
  exact Fields.forall_ofList (P := fun k => ∃ s, k = .text s ∧ P s)
    (Q := fun v => ∃ s, v = .text s ∧ Q s) hwritten e he

/-- Attributes under different keys are there as they are written. -/
theorem attributesOf_of_nodup {ws : List Write} (h : (ws.map Prod.fst).Nodup) :
    attributesOf ws = ws.map fun w => (Key.text w.1, Value.text w.2) := by
  apply Fields.ofList_of_pairwise
  rw [List.pairwise_map]
  have hdiffer : ws.Pairwise fun v w => v.1 ≠ w.1 := List.pairwise_map.mp h
  exact hdiffer.imp fun hne => by simpa using hne

end TagOutline
