import Mathlib.Data.Finset.Card
import Mathlib.Data.Finset.Range
import Mathlib.Data.Finset.Filter
import Mathlib.Logic.Relation
import TagOutline.Proofs.Entity.Store

/-!
# What an object reaches

An entity in the store shows its object and all that is reached from there through children, and
nothing else. As long as no object is its own descendant, the entity at a place is the object there
with the entities of its children, however deep they are.
-/

namespace TagOutline.Session

/-- The second object is a child of the first one. -/
def IsChild (s : Session) (r d : Ref) : Prop :=
  d ∈ s.childrenAt r

/-- The second object is the first one or a descendant of it. -/
def Reaches (s : Session) (r d : Ref) : Prop :=
  Relation.ReflTransGen s.IsChild r d

/-- No object is its own descendant. -/
def IsAcyclic (s : Session) : Prop :=
  ∀ r, ¬ Relation.TransGen s.IsChild r r

/-- Children and names stand for objects that are there. -/
structure IsClosed (s : Session) : Prop where
  children : ∀ r, ∀ d ∈ s.childrenAt r, d < s.objects.length
  names : ∀ n ∈ s.names, n.2 < s.objects.length

/-- Two objects from which no object is reached that the two have in common. -/
def AreApart (s : Session) (r o : Ref) : Prop :=
  ∀ d, s.Reaches r d → ¬ s.Reaches o d

variable {s s' : Session} {r d o : Ref}

theorem Reaches.refl (s : Session) (r : Ref) : s.Reaches r r :=
  Relation.ReflTransGen.refl

theorem Reaches.of_child (child : s.IsChild r d) (h : s.Reaches d o) : s.Reaches r o :=
  Relation.ReflTransGen.head child h

theorem AreApart.symm (h : s.AreApart r o) : s.AreApart o r :=
  fun d ho hr => h d hr ho

theorem AreApart.not_reaches (h : s.AreApart r o) : ¬ s.Reaches r o :=
  fun hr => h o hr (Reaches.refl s o)

theorem lt_of_isChild (h : s.IsChild r d) : r < s.objects.length := by
  by_contra outside
  have none := childrenAt_of_le (Nat.le_of_not_lt outside)
  rw [IsChild, none] at h
  cases h

/-- From a place where no object is, nothing else is reached. -/
theorem eq_of_reaches (outside : s.objects.length ≤ r) (h : s.Reaches r d) : d = r := by
  rcases Relation.ReflTransGen.cases_head h with rfl | ⟨c, child, -⟩
  · rfl
  · exact absurd (lt_of_isChild child) (Nat.not_lt.mpr outside)

theorem IsClosed.lt_of_reaches (closed : s.IsClosed) (inside : r < s.objects.length)
    (h : s.Reaches r d) : d < s.objects.length := by
  rcases Relation.ReflTransGen.cases_tail h with rfl | ⟨c, -, child⟩
  · exact inside
  · exact closed.children c d child

theorem IsAcyclic.of_isChild (acyclic : s'.IsAcyclic)
    (more : ∀ r d, s.IsChild r d → s'.IsChild r d) : s.IsAcyclic :=
  fun r cycle => acyclic r (Relation.TransGen.mono more r r cycle)

/-- Where children have a lower rank than their parents, no object is its own descendant. -/
theorem isAcyclic_of_rank (rank : Ref → Nat) (lower : ∀ r, ∀ d ∈ s.childrenAt r, rank d < rank r) :
    s.IsAcyclic := by
  have descends : ∀ r d, Relation.TransGen s.IsChild r d → rank d < rank r := by
    intro r d descendant
    induction descendant with
    | single child => exact lower _ _ child
    | tail _ child ih => exact Nat.lt_trans (lower _ _ child) ih
  exact fun r cycle => Nat.lt_irrefl _ (descends r r cycle)

/-- What is reached stays the same where the children stay the same. -/
theorem Reaches.of_childrenAt (h : s.Reaches r d)
    (same : ∀ i, s.Reaches r i → s'.childrenAt i = s.childrenAt i) : s'.Reaches r d := by
  induction h with
  | refl => exact Reaches.refl s' r
  | @tail i d before child ih =>
    refine Relation.ReflTransGen.tail ih ?_
    rw [IsChild, same i before]
    exact child

/-! How deep a store is. -/

open Classical in
/-- The descendants of an object. -/
noncomputable def below (s : Session) (r : Ref) : Finset Ref :=
  (Finset.range s.objects.length).filter fun d => Relation.TransGen s.IsChild r d

theorem mem_below : d ∈ s.below r ↔ d < s.objects.length ∧ Relation.TransGen s.IsChild r d := by
  simp [below]

/-- A child has fewer descendants. -/
theorem card_below_lt (closed : s.IsClosed) (acyclic : s.IsAcyclic) (child : s.IsChild r d) :
    (s.below d).card < (s.below r).card := by
  apply Finset.card_lt_card
  refine ⟨?_, ?_⟩
  · intro i hi
    obtain ⟨inside, descendant⟩ := mem_below.mp hi
    exact mem_below.mpr ⟨inside, Relation.TransGen.head child descendant⟩
  · intro all
    have itself := all (mem_below.mpr ⟨closed.children r d child, Relation.TransGen.single child⟩)
    exact acyclic d (mem_below.mp itself).2

/-- An object is not among its descendants, so there are fewer of these than objects. -/
theorem card_below_lt_length (acyclic : s.IsAcyclic) (inside : r < s.objects.length) :
    (s.below r).card < s.objects.length := by
  have fewer : (s.below r).card < (Finset.range s.objects.length).card := by
    apply Finset.card_lt_card
    refine ⟨fun i hi => Finset.mem_range.mpr (mem_below.mp hi).1, ?_⟩
    intro all
    exact acyclic r (mem_below.mp (all (Finset.mem_range.mpr inside))).2
  simpa using fewer

/-- Induction from the children to their parents. -/
theorem child_induction (closed : s.IsClosed) (acyclic : s.IsAcyclic) {motive : Ref → Prop}
    (parent : ∀ r, (∀ d, s.IsChild r d → motive d) → motive r) (r : Ref) : motive r := by
  induction hn : (s.below r).card using Nat.strong_induction_on generalizing r with
  | _ n ih =>
    refine parent r fun d child => ?_
    have fewer := card_below_lt closed acyclic child
    exact ih _ (hn ▸ fewer) d rfl

/-- From as many levels on as there are descendants, further levels show nothing more. -/
theorem view_congr (closed : s.IsClosed) (acyclic : s.IsAcyclic) {n m : Nat}
    (hn : (s.below r).card ≤ n) (hm : (s.below r).card ≤ m) :
    view s.objects n r = view s.objects m r := by
  induction r using child_induction closed acyclic generalizing n m with
  | parent r ih =>
    by_cases childless : s.childrenAt r = []
    · rw [view_of_childrenAt_eq_nil childless, view_of_childrenAt_eq_nil childless]
    · obtain ⟨c, hc⟩ := List.exists_mem_of_ne_nil _ childless
      have some := card_below_lt closed acyclic hc
      obtain ⟨n, rfl⟩ := Nat.exists_eq_succ_of_ne_zero (show n ≠ 0 by omega)
      obtain ⟨m, rfl⟩ := Nat.exists_eq_succ_of_ne_zero (show m ≠ 0 by omega)
      have children : (s.childrenAt r).map (view s.objects n) =
          (s.childrenAt r).map (view s.objects m) := by
        apply List.map_congr_left
        intro d hd
        have fewer := card_below_lt closed acyclic hd
        exact ih d hd (by omega) (by omega)
      exact congrArg (s.objectAt r).toEntity children

/-- An entity is its object with the entities of its children. -/
theorem entityAt_eq_toEntity (closed : s.IsClosed) (acyclic : s.IsAcyclic) (r : Ref) :
    s.entityAt r = (s.objectAt r).toEntity ((s.childrenAt r).map s.entityAt) := by
  by_cases childless : s.childrenAt r = []
  · rw [entityAt, view_of_childrenAt_eq_nil childless, childless, List.map_nil]
  · obtain ⟨c, hc⟩ := List.exists_mem_of_ne_nil _ childless
    have inside := lt_of_isChild hc
    obtain ⟨depth, hdepth⟩ := Nat.exists_eq_succ_of_ne_zero (Nat.ne_zero_of_lt inside)
    have children : (s.childrenAt r).map (view s.objects depth) =
        (s.childrenAt r).map s.entityAt := by
      apply List.map_congr_left
      intro d hd
      have fewer := card_below_lt closed acyclic hd
      have bound := card_below_lt_length acyclic inside
      exact view_congr closed acyclic (by omega) (by omega)
    rw [← children, entityAt, hdepth]
    rfl

/-- An entity is known by the objects that are reached from its own. -/
theorem entityAt_of_same (closed : s.IsClosed) (acyclic : s.IsAcyclic) (closed' : s'.IsClosed)
    (acyclic' : s'.IsAcyclic) (same : ∀ d, s.Reaches r d → s'.objectAt d = s.objectAt d) :
    s'.entityAt r = s.entityAt r := by
  induction r using child_induction closed acyclic with
  | parent r ih =>
    have object := same r (Reaches.refl s r)
    have children : (s'.childrenAt r).map s'.entityAt = (s.childrenAt r).map s.entityAt := by
      rw [childrenAt, object]
      apply List.map_congr_left
      intro d hd
      exact ih d hd fun i hi => same i (Reaches.of_child hd hi)
    rw [entityAt_eq_toEntity closed acyclic, entityAt_eq_toEntity closed' acyclic', object,
      children]

end TagOutline.Session
