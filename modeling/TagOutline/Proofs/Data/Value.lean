import TagOutline.Proofs.Data.Sameness

/-!
# Values that JSON holds

The values that stay what they are when they are written as JSON and read again: null, truth values,
integers that are not too long and texts, and lists and records of such values. Keys of a record are
texts, and each of them is there once. A value of this kind is the same as itself.
-/

namespace TagOutline

/-- A value without floats, whose records have texts for keys and no key twice. -/
inductive Value.IsJson : Value → Prop
  | null : IsJson .null
  | bool (b : Bool) : IsJson (.bool b)
  | int (n : Int) (short : (Nat.toDigits 10 n.natAbs).length ≤ maxDigits) : IsJson (.int n)
  | text (s : String) : IsJson (.text s)
  | list {xs : List Value} (items : ∀ x ∈ xs, IsJson x) : IsJson (.list xs)
  | record {fs : Fields Value} (keys : ∀ f ∈ fs, ∃ s, f.1 = .text s)
      (distinct : (fs.map Prod.fst).Nodup) (contents : ∀ f ∈ fs, IsJson f.2) : IsJson (.record fs)

namespace Fields

variable {α : Type} {fs : Fields α}

/-- Texts that differ are different keys. -/
theorem pairwise_of_texts (keys : ∀ f ∈ fs, ∃ s, f.1 = .text s)
    (distinct : (fs.map Prod.fst).Nodup) : fs.Pairwise fun e f => e.1.same f.1 = false := by
  induction fs with
  | nil => exact List.Pairwise.nil
  | cons e fs ih =>
    rw [List.map_cons, List.nodup_cons] at distinct
    refine List.pairwise_cons.mpr ⟨?_, ih (fun f hf => keys f (by simp [hf])) distinct.2⟩
    intro f hf
    obtain ⟨s, hs⟩ := keys e (by simp)
    obtain ⟨t, ht⟩ := keys f (by simp [hf])
    have apart : s ≠ t := by
      rintro rfl
      apply distinct.1
      rw [hs, ← ht]
      exact List.mem_map_of_mem hf
    rw [hs, ht, Key.same_text]
    exact decide_eq_false apart

end Fields

namespace Value

theorem IsJson.isWellFormed {v : Value} (h : v.IsJson) : v.IsWellFormed := by
  induction h with
  | null => exact .null
  | bool b => exact .bool b
  | int n => exact .int n
  | text s => exact .text s
  | list items ih => exact .list ih
  | record keys distinct contents ih => exact .record (Fields.pairwise_of_texts keys distinct) ih

theorem IsJson.same_self {v : Value} (h : v.IsJson) : v.same v = true :=
  h.isWellFormed.same_self

end Value

end TagOutline
