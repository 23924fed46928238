import TagOutline.Proofs.Outline.Reading
import TagOutline.Proofs.Tag.Line

/-!
# Drafts as entries

A draft taken apart into what tags say: the entry that opens it, the attributes written to it, and
its children in the same way. Drafts are plain if tag lines can say all that they hold. The reading
of entries is plain where each of them fits on a line, and it gives plain drafts back from the
entries that they are taken apart into.
-/

namespace TagOutline

/-- A child as entries. -/
def ChildDraft.entries (o : OutlineOptions) (d : ChildDraft) : List Write :=
  (o.childTag, d.name) :: d.writes

/-- A container as entries, those of its children behind its own. -/
def ContainerDraft.entries (o : OutlineOptions) (c : ContainerDraft) : List Write :=
  (o.containerTag, c.name) :: (c.writes ++ c.children.flatMap (ChildDraft.entries o))

/-- A key that a tag line can hold and that is neither missing nor that of a tag that opens
something. -/
structure OutlineOptions.IsAttributeKey (o : OutlineOptions) (key : String) : Prop where
  nonempty : key ≠ ""
  solid : Tag.IsKey key
  notContainer : key ≠ o.containerTag
  notChild : key ≠ o.childTag

/-- An entry that is read as an attribute when it stands on a line of its own. -/
structure OutlineOptions.IsAttribute (o : OutlineOptions) (w : Write) : Prop where
  key : o.IsAttributeKey w.1
  value : Tag.IsValue w.2

/-- A child that tag lines can say. -/
structure ChildDraft.IsPlain (o : OutlineOptions) (d : ChildDraft) : Prop where
  name : Tag.IsValue d.name
  writes : ∀ w ∈ d.writes, o.IsAttribute w

/-- A container that tag lines can say. -/
structure ContainerDraft.IsPlain (o : OutlineOptions) (c : ContainerDraft) : Prop where
  name : Tag.IsValue c.name
  writes : ∀ w ∈ c.writes, o.IsAttribute w
  children : ∀ d ∈ c.children, d.IsPlain o

namespace OutlineOptions

variable {o : OutlineOptions}

theorem IsAttribute.role {w : Write} (h : o.IsAttribute w) : o.role w.1 = .attribute :=
  role_eq_attribute_iff.mpr ⟨h.key.nonempty, h.key.notContainer, h.key.notChild⟩

theorem role_containerTag : o.role o.containerTag = .opensContainer :=
  role_eq_opensContainer_iff.mpr rfl

theorem role_childTag (apart : o.containerTag ≠ o.childTag) : o.role o.childTag = .opensChild :=
  role_eq_opensChild_iff.mpr ⟨rfl, apart.symm⟩

/-! Entries that fit on lines are read as plain drafts. -/

theorem mem_openings {role : TagRole} {es : List Write} {opening : String × List Write}
    (h : opening ∈ o.openings role es) :
    (∃ e ∈ es, o.role e.1 = role ∧ opening.1 = e.2) ∧ opening.2 ⊆ es := by
  induction es with
  | nil => cases h
  | cons e es ih =>
    have later : opening ∈ o.openings role es →
        (∃ f ∈ e :: es, o.role f.1 = role ∧ opening.1 = f.2) ∧ opening.2 ⊆ e :: es := by
      intro hrest
      obtain ⟨⟨f, hf, hrole, hname⟩, hsub⟩ := ih hrest
      exact ⟨⟨f, List.mem_cons_of_mem e hf, hrole, hname⟩, fun w hw => List.mem_cons_of_mem e (hsub hw)⟩
    unfold openings at h
    split at h
    next hrole =>
      rcases List.mem_cons.mp h with rfl | hrest
      · exact ⟨⟨e, by simp, hrole, rfl⟩, List.subset_cons_self e es⟩
      · exact later hrest
    next hrole => exact later h

theorem untilContainer_subset (es : List Write) : o.untilContainer es ⊆ es :=
  (List.takeWhile_prefix _).subset

theorem mem_writesIn {es : List Write} {w : Write} (h : w ∈ o.writesIn es) :
    w ∈ es ∧ o.role w.1 = .attribute := by
  obtain ⟨hmem, hrole⟩ := List.mem_filter.mp h
  exact ⟨(List.takeWhile_prefix _).subset hmem, by simpa using hrole⟩

variable {es : List Write}

/-- The attributes among entries that fit on lines. -/
theorem isAttribute_of_mem_writesIn (fits : ∀ e ∈ es, Tag.IsKey e.1 ∧ Tag.IsValue e.2) {w : Write}
    (h : w ∈ o.writesIn es) : o.IsAttribute w := by
  obtain ⟨hmem, hrole⟩ := mem_writesIn h
  obtain ⟨hempty, hcontainer, hchild⟩ := role_eq_attribute_iff.mp hrole
  exact ⟨⟨hempty, (fits w hmem).1, hcontainer, hchild⟩, (fits w hmem).2⟩

theorem isPlain_of_mem_childrenIn (fits : ∀ e ∈ es, Tag.IsKey e.1 ∧ Tag.IsValue e.2)
    {d : ChildDraft} (h : d ∈ o.childrenIn es) : d.IsPlain o := by
  obtain ⟨opening, hopening, rfl⟩ := List.mem_map.mp h
  obtain ⟨⟨e, he, -, hname⟩, hsub⟩ := mem_openings hopening
  refine ⟨?_, ?_⟩
  · show Tag.IsValue opening.1
    rw [hname]
    exact (fits e (untilContainer_subset es he)).2
  · intro w hw
    apply isAttribute_of_mem_writesIn _ hw
    exact fun f hf => fits f (untilContainer_subset es (hsub hf))

/-- A reading of entries that fit on lines is plain. -/
theorem isPlain_of_mem_reading (fits : ∀ e ∈ es, Tag.IsKey e.1 ∧ Tag.IsValue e.2)
    {c : ContainerDraft} (h : c ∈ o.reading es) : c.IsPlain o := by
  obtain ⟨opening, hopening, rfl⟩ := List.mem_map.mp h
  obtain ⟨⟨e, he, -, hname⟩, hsub⟩ := mem_openings hopening
  have inside : ∀ f ∈ opening.2, Tag.IsKey f.1 ∧ Tag.IsValue f.2 := fun f hf => fits f (hsub hf)
  refine ⟨?_, ?_, ?_⟩
  · show Tag.IsValue opening.1
    rw [hname]
    exact (fits e he).2
  · exact fun w hw => isAttribute_of_mem_writesIn inside hw
  · exact fun d hd => isPlain_of_mem_childrenIn inside hd

/-- There are children only where an entry opens one. -/
theorem exists_opensChild_of_mem_reading {c : ContainerDraft} (h : c ∈ o.reading es)
    (parent : c.children ≠ []) : ∃ e ∈ es, o.role e.1 = .opensChild := by
  obtain ⟨opening, hopening, rfl⟩ := List.mem_map.mp h
  obtain ⟨-, hsub⟩ := mem_openings hopening
  obtain ⟨d, hd⟩ := List.exists_mem_of_ne_nil _ parent
  obtain ⟨inner, hinner, -⟩ := List.mem_map.mp hd
  obtain ⟨⟨e, he, hrole, -⟩, -⟩ := mem_openings hinner
  exact ⟨e, hsub (untilContainer_subset opening.2 he), hrole⟩

/-! Plain drafts are read from their entries. -/

section Attributes

variable {ws : List Write} (plain : ∀ w ∈ ws, o.IsAttribute w)
include plain

theorem writesIn_append (es : List Write) : o.writesIn (ws ++ es) = ws ++ o.writesIn es := by
  induction ws with
  | nil => rfl
  | cons w ws ih =>
    have hrole : o.role w.1 = .attribute := (plain w (by simp)).role
    rw [List.cons_append, writesIn_cons_of_attribute hrole, ih fun v hv => plain v (by simp [hv])]
    rfl

theorem childrenIn_append (es : List Write) : o.childrenIn (ws ++ es) = o.childrenIn es := by
  induction ws with
  | nil => rfl
  | cons w ws ih =>
    have hopens : o.opens w = false := by simp [opens, (plain w (by simp)).role]
    rw [List.cons_append, childrenIn_cons_of_not_opens hopens]
    exact ih fun v hv => plain v (by simp [hv])

theorem reading_append (es : List Write) : o.reading (ws ++ es) = o.reading es := by
  induction ws with
  | nil => rfl
  | cons w ws ih =>
    have hrole : o.role w.1 ≠ .opensContainer := by simp [(plain w (by simp)).role]
    rw [List.cons_append, reading_cons_of_ne hrole]
    exact ih fun v hv => plain v (by simp [hv])

end Attributes

theorem flatMap_entries_cons (d : ChildDraft) (ds : List ChildDraft) (es : List Write) :
    (d :: ds).flatMap (ChildDraft.entries o) ++ es =
      (o.childTag, d.name) :: (d.writes ++ (ds.flatMap (ChildDraft.entries o) ++ es)) := by
  simp [ChildDraft.entries]

variable {ds : List ChildDraft} (apart : o.containerTag ≠ o.childTag)
  (plain : ∀ d ∈ ds, d.IsPlain o)
include apart plain

/-- Children end the attributes before them, as the next container does. -/
theorem writesIn_children (closed : o.writesIn es = []) :
    o.writesIn (ds.flatMap (ChildDraft.entries o) ++ es) = [] := by
  cases ds with
  | nil => exact closed
  | cons d ds =>
    rw [flatMap_entries_cons]
    apply writesIn_cons_of_opens
    simp [opens, role_childTag apart]

theorem childrenIn_children (closed : o.writesIn es = []) (last : o.childrenIn es = []) :
    o.childrenIn (ds.flatMap (ChildDraft.entries o) ++ es) = ds := by
  induction ds with
  | nil => exact last
  | cons d ds ih =>
    have others : ∀ d ∈ ds, d.IsPlain o := fun e he => plain e (by simp [he])
    have writes := (plain d (by simp)).writes
    rw [flatMap_entries_cons, childrenIn_cons_of_child (role_childTag apart), writesIn_append writes,
      writesIn_children apart others closed, childrenIn_append writes, ih others, List.append_nil]

theorem reading_children (es : List Write) :
    o.reading (ds.flatMap (ChildDraft.entries o) ++ es) = o.reading es := by
  induction ds with
  | nil => rfl
  | cons d ds ih =>
    have others : ∀ d ∈ ds, d.IsPlain o := fun e he => plain e (by simp [he])
    have writes := (plain d (by simp)).writes
    rw [flatMap_entries_cons, reading_cons_of_ne (by simp [role_childTag apart]), reading_append writes, ih others]

omit plain in
/-- Plain drafts are the reading of their entries. -/
theorem reading_entries {cs : List ContainerDraft} (plain : ∀ c ∈ cs, c.IsPlain o) :
    o.reading (cs.flatMap (ContainerDraft.entries o)) = cs := by
  induction cs with
  | nil => rfl
  | cons c cs ih =>
    have others : ∀ c ∈ cs, c.IsPlain o := fun d hd => plain d (by simp [hd])
    obtain ⟨-, writes, children⟩ := plain c (by simp)
    have whole : (c :: cs).flatMap (ContainerDraft.entries o) =
        (o.containerTag, c.name) :: (c.writes ++ (c.children.flatMap (ChildDraft.entries o) ++
          cs.flatMap (ContainerDraft.entries o))) := by
      simp [ContainerDraft.entries]
    -- what stands behind a container is another one or the end
    have closed : o.writesIn (cs.flatMap (ContainerDraft.entries o)) = [] := by
      cases cs with
      | nil => rfl
      | cons d ds =>
        rw [List.flatMap_cons, ContainerDraft.entries]
        exact writesIn_cons_of_opens (by simp [opens, role_containerTag]) _
    have last : o.childrenIn (cs.flatMap (ContainerDraft.entries o)) = [] := by
      cases cs with
      | nil => rfl
      | cons d ds =>
        rw [List.flatMap_cons, ContainerDraft.entries]
        exact childrenIn_cons_of_container role_containerTag _
    rw [whole, reading_cons_of_container role_containerTag, writesIn_append writes,
      writesIn_children apart children closed, childrenIn_append writes,
      childrenIn_children apart children closed last, reading_append writes,
      reading_children apart children, ih others, List.append_nil]

omit apart plain in
/-- An entry that opens a child is there only where a container has children. -/
theorem exists_parent_of_mem_entries {cs : List ContainerDraft} (plain : ∀ c ∈ cs, c.IsPlain o)
    {w : Write} (hw : w ∈ cs.flatMap (ContainerDraft.entries o))
    (role : o.role w.1 = .opensChild) : ∃ c ∈ cs, c.children ≠ [] := by
  obtain ⟨c, hc, hmem⟩ := List.mem_flatMap.mp hw
  refine ⟨c, hc, ?_⟩
  intro hnone
  rw [ContainerDraft.entries, hnone, List.flatMap_nil, List.append_nil] at hmem
  rcases List.mem_cons.mp hmem with rfl | hmem
  · rw [role_containerTag] at role
    cases role
  · rw [((plain c hc).writes w hmem).role] at role
    cases role

end OutlineOptions

end TagOutline
