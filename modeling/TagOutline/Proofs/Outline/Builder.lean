import Mathlib.Data.List.Nodup
import TagOutline.Outline.Builder
import TagOutline.Proofs.Entity.Store
import TagOutline.Proofs.Outline.Correspondence
import TagOutline.Proofs.Outline.Draft

/-!
# Outlines built in a store

A parser holds the open container as a draft and knows by its focus what attributes go to. A builder
keeps references to the open container and to what attributes are written to, and in what phase it
is. These three agree with each other and with the store after any tags, whether the tags were
taken, passed over or refused, and no object is in two places.
-/

namespace TagOutline

namespace Builder

/-- What taking a tag leads to. -/
inductive Takes (b : Builder) (t : Tag) : Builder → Prop where
  | container (role : b.options.role t.key = .opensContainer) :
      Takes b t { b with
        session := (b.session.insert (.new b.options.containerClass t.value)).1
        phase := .container
        containers := b.containers ++ b.current.toList
        current := some b.session.objects.length
        target := some b.session.objects.length }
  | child {r : Ref} (role : b.options.role t.key = .opensChild) (opened : b.current = some r)
      (able : ((b.session.insert (.new b.options.childClass t.value)).1.objectAt r).cls.isContainer
        = true) :
      Takes b t { b with
        session := b.session.insertChild r (.new b.options.childClass t.value)
        phase := .child
        target := some b.session.objects.length }
  /-- The child is made, but nothing refers to it. -/
  | childless {r : Ref} (role : b.options.role t.key = .opensChild) (opened : b.current = some r)
      (unable : ((b.session.insert
        (.new b.options.childClass t.value)).1.objectAt r).cls.isContainer = false) :
      Takes b t { b with session := (b.session.insert (.new b.options.childClass t.value)).1 }
  | orphan (role : b.options.role t.key = .opensChild) (closed : b.current = none) : Takes b t b
  | bare (role : b.options.role t.key = .bare) : Takes b t b
  | stray (role : b.options.role t.key = .attribute)
      (closed : b.phase = .topLevel ∨ b.target = none) : Takes b t b
  | written {r : Ref} (role : b.options.role t.key = .attribute) (opened : b.phase ≠ .topLevel)
      (target : b.target = some r) :
      Takes b t { b with session := b.session.update r (·.write (t.key, t.value)) }

theorem takes_openChild (b : Builder) (t : Tag) (role : b.options.role t.key = .opensChild) :
    b.Takes t (b.openChild t) := by
  unfold openChild
  split
  next closed => exact .orphan role closed
  next r opened =>
    simp only [Session.adopt_eq]
    split
    next error unable =>
      split at unable
      next able => cases unable
      next no => exact .childless role opened (by simpa using no)
    next session able =>
      split at able
      next yes =>
        cases able
        exact .child role opened yes
      next no => cases able

theorem takes_writeAttribute (b : Builder) (t : Tag) (role : b.options.role t.key = .attribute) :
    b.Takes t (b.writeAttribute t) := by
  unfold writeAttribute
  split
  next phase => exact .stray role (Or.inl phase)
  next opened =>
    split
    next target => exact .stray role (Or.inr target)
    next r target =>
      have written := b.session.writeAttribute_text r (t.key, t.value)
      simp only [written]
      exact .written role opened target

theorem takes_take (b : Builder) (t : Tag) : b.Takes t (b.take t) := by
  unfold take
  split
  next role => exact .container role
  next role => exact takes_openChild b t role
  next role => exact .bare role
  next role => exact takes_writeAttribute b t role

/-- The containers that are finished, and the one that is open. -/
def roots (b : Builder) : List Ref :=
  b.containers ++ b.current.toList

/-- The fields of a builder agree with each other and with the store. -/
inductive Shape (b : Builder) : Prop where
  | topLevel (phase : b.phase = .topLevel) (current : b.current = none) (target : b.target = none)
      (containers : b.containers = [])
  | container {r : Ref} (phase : b.phase = .container) (current : b.current = some r)
      (target : b.target = some r) (fresh : b.session.childrenAt r = [])
  | child {r d : Ref} {ds : List Ref} (phase : b.phase = .child) (current : b.current = some r)
      (target : b.target = some d) (children : b.session.childrenAt r = ds ++ [d])

/-- What the phase, the open container and the target say of each other. Where no container is open,
there is no target and none is finished. Otherwise attributes are written either to the open
container, which has no children then, or to the last of its children. -/
structure IsCoherent (b : Builder) : Prop where
  topLevel_iff_current : b.phase = .topLevel ↔ b.current = none
  topLevel_iff_target : b.phase = .topLevel ↔ b.target = none
  unfinished : b.phase = .topLevel → b.containers = []
  container_iff : b.phase = .container ↔ ∃ r, b.current = some r ∧ b.target = some r
  fresh : b.phase = .container → ∀ r, b.current = some r → b.session.childrenAt r = []
  child_iff : b.phase = .child ↔ ∃ r d, b.current = some r ∧ b.target = some d ∧
    (b.session.childrenAt r).getLast? = some d

/-- No object is in two places: a container is listed once, and a child has one parent, which has
it once. Only containers have children, and none of these is a container. -/
structure IsSeparate (b : Builder) : Prop where
  once : b.roots.Nodup
  made : ∀ r ∈ b.roots, r < b.session.objects.length
  parent : ∀ r, ∀ d ∈ b.session.childrenAt r, r ∈ b.roots
  child : ∀ r, ∀ d ∈ b.session.childrenAt r, d ∉ b.roots ∧ d < b.session.objects.length
  oneParent : ∀ r r', ∀ d ∈ b.session.childrenAt r, d ∈ b.session.childrenAt r' → r = r'
  childOnce : ∀ r, (b.session.childrenAt r).Nodup

variable {b b' : Builder} {p : Parser} {t : Tag} {r d : Ref}

theorem mem_roots_of_current (h : b.current = some r) : r ∈ b.roots := by
  simp [roots, h]

/-- Nothing is moved where the same containers have the same children. -/
theorem IsSeparate.of_same (h : b.IsSeparate) (roots : b'.roots = b.roots)
    (children : ∀ r, b'.session.childrenAt r = b.session.childrenAt r)
    (kept : b.session.objects.length ≤ b'.session.objects.length) : b'.IsSeparate where
  once := roots ▸ h.once
  made r hr := Nat.lt_of_lt_of_le (h.made r (roots ▸ hr)) kept
  parent r d hd := by
    rw [children] at hd
    exact roots ▸ h.parent r d hd
  child r d hd := by
    rw [children] at hd
    exact ⟨roots ▸ (h.child r d hd).1, Nat.lt_of_lt_of_le (h.child r d hd).2 kept⟩
  oneParent r r' d hd hd' := by
    rw [children] at hd hd'
    exact h.oneParent r r' d hd hd'
  childOnce r := children r ▸ h.childOnce r

theorem IsSeparate.write (h : b.IsSeparate) (r : Ref) (w : Write) :
    IsSeparate { b with session := b.session.update r (·.write w) } :=
  h.of_same rfl (fun i => Session.childrenAt_write _ _ _ i) (by simp)

theorem IsSeparate.notMem_roots (h : b.IsSeparate) : b.session.objects.length ∉ b.roots :=
  fun hmem => Nat.lt_irrefl _ (h.made _ hmem)

theorem IsSeparate.notMem_childrenAt (h : b.IsSeparate) (r : Ref) :
    b.session.objects.length ∉ b.session.childrenAt r :=
  fun hmem => Nat.lt_irrefl _ (h.child r _ hmem).2

/-- A new object is listed as a container. -/
theorem IsSeparate.addRoot (h : b.IsSeparate)
    (roots : b'.roots = b.roots ++ [b.session.objects.length])
    (children : ∀ r, b'.session.childrenAt r = b.session.childrenAt r)
    (length : b'.session.objects.length = b.session.objects.length + 1) : b'.IsSeparate where
  once := by
    rw [roots, ← List.concat_eq_append]
    exact h.once.concat h.notMem_roots
  made r hr := by
    rw [length]
    rw [roots, List.mem_append, List.mem_singleton] at hr
    rcases hr with hr | rfl
    · exact Nat.lt_succ_of_lt (h.made r hr)
    · exact Nat.lt_succ_self _
  parent r d hd := by
    rw [children] at hd
    rw [roots]
    exact List.mem_append_left _ (h.parent r d hd)
  child r d hd := by
    rw [children] at hd
    rw [roots, length, List.mem_append, List.mem_singleton, not_or]
    obtain ⟨notRoot, made⟩ := h.child r d hd
    exact ⟨⟨notRoot, Nat.ne_of_lt made⟩, Nat.lt_succ_of_lt made⟩
  oneParent r r' d hd hd' := by
    rw [children] at hd hd'
    exact h.oneParent r r' d hd hd'
  childOnce r := children r ▸ h.childOnce r

/-- A new object is put behind the children of a container. -/
theorem IsSeparate.addChild (h : b.IsSeparate) (root : r ∈ b.roots) (roots : b'.roots = b.roots)
    (children : ∀ i, b'.session.childrenAt i =
      if i = r then b.session.childrenAt r ++ [b.session.objects.length]
      else b.session.childrenAt i)
    (length : b'.session.objects.length = b.session.objects.length + 1) : b'.IsSeparate := by
  -- a child is one that was there, or the new one of `r`
  have cases : ∀ i, ∀ d ∈ b'.session.childrenAt i,
      d ∈ b.session.childrenAt i ∨ i = r ∧ d = b.session.objects.length := by
    intro i d hd
    rw [children] at hd
    split at hd
    next hi =>
      rw [List.mem_append, List.mem_singleton] at hd
      exact hd.imp (fun hd => hi ▸ hd) fun hd => ⟨hi, hd⟩
    next => exact Or.inl hd
  constructor
  case once => exact roots ▸ h.once
  case made =>
    intro i hi
    rw [length]
    exact Nat.lt_succ_of_lt (h.made i (roots ▸ hi))
  case parent =>
    intro i d hd
    rw [roots]
    rcases cases i d hd with hd | ⟨rfl, -⟩
    · exact h.parent i d hd
    · exact root
  case child =>
    intro i d hd
    rw [roots, length]
    rcases cases i d hd with hd | ⟨-, rfl⟩
    · exact ⟨(h.child i d hd).1, Nat.lt_succ_of_lt (h.child i d hd).2⟩
    · exact ⟨h.notMem_roots, Nat.lt_succ_self _⟩
  case oneParent =>
    intro i i' d hd hd'
    rcases cases i d hd with hd | ⟨hi, hnew⟩
    · rcases cases i' d hd' with hd' | ⟨-, rfl⟩
      · exact h.oneParent i i' d hd hd'
      · exact absurd hd (h.notMem_childrenAt i)
    · rcases cases i' d hd' with hd' | ⟨hi', -⟩
      · exact absurd (hnew ▸ hd') (h.notMem_childrenAt i')
      · exact hi.trans hi'.symm
  case childOnce =>
    intro i
    rw [children]
    split
    · rw [← List.concat_eq_append]
      exact (h.childOnce r).concat (h.notMem_childrenAt r)
    · exact h.childOnce i

theorem Shape.of_same (h : b.Shape) (children : ∀ r, b'.session.childrenAt r = b.session.childrenAt r)
    (phase : b'.phase = b.phase) (current : b'.current = b.current) (target : b'.target = b.target)
    (containers : b'.containers = b.containers) : b'.Shape := by
  cases h with
  | topLevel hphase hcurrent htarget hcontainers =>
    exact .topLevel (phase.trans hphase) (current.trans hcurrent) (target.trans htarget)
      (containers.trans hcontainers)
  | container hphase hcurrent htarget fresh =>
    exact .container (phase.trans hphase) (current.trans hcurrent) (target.trans htarget)
      ((children _).trans fresh)
  | child hphase hcurrent htarget hchildren =>
    exact .child (phase.trans hphase) (current.trans hcurrent) (target.trans htarget)
      ((children _).trans hchildren)

theorem Takes.options_eq (h : b.Takes t b') : b'.options = b.options := by
  cases h <;> rfl

theorem Takes.shape (h : b.Takes t b') (shape : b.Shape) (separate : b.IsSeparate) : b'.Shape := by
  cases h with
  | container role =>
    refine .container rfl rfl rfl ?_
    rw [Session.childrenAt_insert rfl, Session.childrenAt_of_le (Nat.le_refl _)]
  | @child r role opened able =>
    have inside := separate.made r (mem_roots_of_current opened)
    have children := Session.childrenAt_insertChild (o := .new b.options.childClass t.value) rfl
      inside r
    rw [if_pos rfl] at children
    exact .child rfl opened rfl children
  | childless role opened unable =>
    exact shape.of_same (fun r => Session.childrenAt_insert rfl _ r) rfl rfl rfl rfl
  | orphan role closed => exact shape
  | bare role => exact shape
  | stray role closed => exact shape
  | written role opened target =>
    exact shape.of_same (fun r => Session.childrenAt_write _ _ _ r) rfl rfl rfl rfl

theorem Takes.isSeparate (h : b.Takes t b') (separate : b.IsSeparate) : b'.IsSeparate := by
  cases h with
  | container role => exact separate.addRoot rfl (Session.childrenAt_insert rfl _) (by simp)
  | @child r role opened able =>
    have root := mem_roots_of_current opened
    exact separate.addChild root rfl
      (Session.childrenAt_insertChild rfl (separate.made r root)) (by simp)
  | childless role opened unable =>
    refine separate.of_same rfl (fun r => Session.childrenAt_insert rfl _ r) ?_
    simp
  | orphan role closed => exact separate
  | bare role => exact separate
  | stray role closed => exact separate
  | written role opened target => exact separate.write _ _

theorem Shape.isCoherent (h : b.Shape) (separate : b.IsSeparate) : b.IsCoherent := by
  cases h with
  | topLevel phase current target containers =>
    constructor <;> simp [phase, current, target, containers]
  | container phase current target fresh =>
    constructor <;> simp [phase, current, target, fresh]
  | @child r d ds phase current target children =>
    have root := mem_roots_of_current current
    have apart : d ≠ r := by
      intro same
      exact (separate.child r d (by simp [children])).1 (same ▸ root)
    constructor <;> simp [phase, current, target, children, apart]

/-! Any number of steps. -/

variable (o : OutlineOptions) (ts : List Tag)

theorem after_concat (t : Tag) : after o (ts ++ [t]) = (after o ts).take t := by
  simp [after]

theorem shape_new : (new o).Shape :=
  .topLevel rfl rfl rfl rfl

theorem isSeparate_new : (new o).IsSeparate := by
  have noChildren : ∀ r, Session.empty.childrenAt r = [] :=
    fun r => Session.childrenAt_of_le (Nat.zero_le r)
  constructor <;> simp [noChildren, roots, new]

theorem sound_after : (after o ts).Shape ∧ (after o ts).IsSeparate := by
  induction ts using List.reverseRecOn with
  | nil => exact ⟨shape_new o, isSeparate_new o⟩
  | append_singleton ts t ih =>
    obtain ⟨shape, separate⟩ := ih
    have step := takes_take (after o ts) t
    rw [after_concat]
    exact ⟨step.shape shape separate, step.isSeparate separate⟩

theorem options_after : (after o ts).options = o := by
  induction ts using List.reverseRecOn with
  | nil => rfl
  | append_singleton ts t ih =>
    rw [after_concat]
    exact (takes_take (after o ts) t).options_eq.trans ih

end Builder

end TagOutline
