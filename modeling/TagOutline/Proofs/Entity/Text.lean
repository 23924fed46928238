import TagOutline.Entity.Text
import TagOutline.Proofs.Entity.Record
import TagOutline.Proofs.Json.RoundTrip

/-!
# Entities read back from their texts

The JSON text of an entity gives the entity back, in every layout, as long as the entity holds what
JSON holds and its children have the class that its own class gives them.
-/

namespace TagOutline.Entity

/-- An entity of a class that is read comes back from its JSON text, whatever the indent: the same
class, name, attributes and children, each in its order. So it is equal to what was written, and
written once more with any indent it gives the same text. -/
theorem ofJson_toJson (e : Entity) (storable : e.IsStorable) (readable : e.cls ≠ .base)
    (children : ∀ d ∈ e.children, d.cls = e.cls.childClass) (indent : Option Int) :
    ofJson e.cls (e.toJson indent) = .ok e ∧ e.same e = true ∧
      ∀ other, (ofJson e.cls (e.toJson indent)).map (toJson other) = .ok (e.toJson other) := by
  have classes : ∀ d ∈ e.children, d.cls = e.cls.childClass ∧ d.children = [] := by
    intro d hd
    exact ⟨children d hd, (storable.children d hd).2.1⟩
  have back : ofJson e.cls (e.toJson indent) = .ok e := by
    rw [ofJson, if_neg readable, toJson, Json.read_write storable.isJson_toValue]
    simp only [rebuild, if_neg readable, ofValue_toValue_self storable.able classes]
    rfl
  refine ⟨back, storable.same_self, ?_⟩
  intro other
  rw [back]
  rfl

/-- A form with a quote, line ends and a control character in its name, nested values under the
empty key, and an input whose name is a number. -/
theorem ofJson_toJson_nested_form :
    let e : Entity := ⟨.form, .text "\"\r\n\x01",
      [(.text "", .list [.null, .int (-10), .record [(.text "\\", .bool true)]])],
      [⟨.input, .int 0, [], []⟩]⟩
    e.IsStorable ∧ (∀ d ∈ e.children, d.cls = e.cls.childClass) ∧
      ofJson .form (e.toJson none) = .ok e ∧ ofJson .form (e.toJson (some (-1))) = .ok e ∧
      e.toJson none = "\x7b\"name\": \"\\\"\\r\\n\\u0001\", \"attributes\": \x7b\"\": [null, -10, " ++
        "\x7b\"\\\\\": true\x7d]\x7d, \"children\": [\x7b\"name\": 0, \"attributes\": \x7b\x7d\x7d]\x7d" := by
  intro e
  have inner : (Value.record [(.text "\\", .bool true)]).IsJson :=
    .record (by simp) (by simp) (by simpa using Value.IsJson.bool true)
  have items : (Value.list [.null, .int (-10), .record [(.text "\\", .bool true)]]).IsJson := by
    refine .list fun x hx => ?_
    simp only [List.mem_cons, List.not_mem_nil, or_false] at hx
    rcases hx with rfl | rfl | rfl
    · exact .null
    · exact .int (-10) (by decide)
    · exact inner
  have storable : e.IsStorable :=
    { name := .text _
      attributes := .record (by simp [e]) (by simp [e]) (by simpa [e] using items)
      able := fun _ => rfl
      children := by
        intro d hd
        rw [List.mem_singleton.mp hd]
        exact ⟨rfl, rfl, .int 0 (by decide), .record (by simp) (by simp) (by simp)⟩ }
  have classes : ∀ d ∈ e.children, d.cls = e.cls.childClass := by simp [e, EntityClass.childClass]
  have h := ofJson_toJson e storable (by decide) classes
  exact ⟨storable, classes, (h none).1, (h (some (-1))).1, by cbv⟩

end TagOutline.Entity
