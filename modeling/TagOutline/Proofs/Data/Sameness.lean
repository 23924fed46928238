import TagOutline.Data.Value
import TagOutline.Proofs.Data.Fields

/-!
# Values that are the same

Maps are compared by their entries, and the order of these does not count. A value is the same as
itself if in no record in it a key is there twice, and then maps with the same entries in different
orders are the same.
-/

namespace TagOutline

/-- A value in whose records no key is there twice. -/
inductive Value.IsWellFormed : Value → Prop
  | null : IsWellFormed .null
  | bool (b : Bool) : IsWellFormed (.bool b)
  | int (n : Int) : IsWellFormed (.int n)
  | float (x : Binary64) : IsWellFormed (.float x)
  | text (s : String) : IsWellFormed (.text s)
  | list {xs : List Value} (items : ∀ x ∈ xs, IsWellFormed x) : IsWellFormed (.list xs)
  | record {fs : Fields Value} (distinct : fs.Pairwise fun e f => e.1.same f.1 = false)
      (contents : ∀ f ∈ fs, IsWellFormed f.2) : IsWellFormed (.record fs)

/-- Two maps have equally many entries, and for each of the one the other has one with the same key
and the same value. -/
def Fields.SameEntries (m n : Fields Value) : Prop :=
  m.length = n.length ∧ ∀ f ∈ m, ∃ g ∈ n, f.1.same g.1 = true ∧ f.2.same g.2 = true

namespace Value

theorem sameItems_self {xs : List Value} (h : ∀ x ∈ xs, x.same x = true) :
    sameItems xs xs = true := by
  induction xs with
  | nil => rfl
  | cons x xs ih =>
    rw [sameItems, h x (by simp), ih fun y hy => h y (by simp [hy])]
    rfl

/-- Fields are the same as others that hold the same values under their keys. -/
theorem sameFields_iff {fs gs : Fields Value} :
    sameFields fs gs = true ↔ ∀ f ∈ fs, ∃ y, gs.get? f.1 = some y ∧ f.2.same y = true := by
  induction fs with
  | nil => simp [sameFields]
  | cons f fs ih =>
    rw [sameFields, Bool.and_eq_true, ih, List.forall_mem_cons]
    refine and_congr_left fun _ => ?_
    cases found : gs.get? f.1 with
    | none => simp
    | some y => simp

theorem IsWellFormed.same_self {v : Value} (h : v.IsWellFormed) : v.same v = true := by
  induction h with
  | null => rfl
  | bool b => simp [same, toKey?]
  | int n => simp [same, toKey?]
  | float x => simp [same, toKey?]
  | text s => simp [same, toKey?]
  | list items ih => exact sameItems_self ih
  | @record fs distinct contents ih =>
    have each : sameFields fs fs = true :=
      sameFields_iff.mpr fun f hf => ⟨f.2, Fields.get?_of_mem distinct hf, ih f hf⟩
    simp [same, each]

/-- Maps are compared by their entries, in whatever order these stand. -/
theorem sameMaps_iff {m n : Fields Value} (distinct : n.Pairwise fun e f => e.1.same f.1 = false) :
    sameMaps m n = true ↔ m.SameEntries n := by
  rw [sameMaps, Bool.and_eq_true, beq_iff_eq, sameFields_iff, Fields.SameEntries]
  refine and_congr_right fun _ => forall₂_congr fun f _ => ?_
  constructor
  · rintro ⟨y, found, same⟩
    obtain ⟨g, hg, key, rfl⟩ := (Fields.get?_eq_some_iff distinct).mp found
    exact ⟨g, hg, (f.1.same_comm g.1).trans key, same⟩
  · rintro ⟨g, hg, key, same⟩
    have found : n.get? f.1 = some g.2 :=
      (Fields.get?_eq_some_iff distinct).mpr ⟨g, hg, (g.1.same_comm f.1).trans key, rfl⟩
    exact ⟨g.2, found, same⟩

end Value

/-- Entries with the same keys and with equal values are the same entries in every order. -/
theorem Fields.sameEntries_of_perm {m n : Fields Value} (values : ∀ f ∈ m, f.2.IsWellFormed)
    (h : (m.map fun f => (f.1.identity, f.2)).Perm (n.map fun f => (f.1.identity, f.2))) :
    m.SameEntries n := by
  refine ⟨by simpa using h.length_eq, ?_⟩
  intro f hf
  obtain ⟨g, hg, same⟩ := List.mem_map.mp (h.subset (List.mem_map_of_mem hf))
  obtain ⟨key, value⟩ := Prod.mk.inj same
  exact ⟨g, hg, Key.same_iff.mpr key.symm, value ▸ (values f hf).same_self⟩

end TagOutline
