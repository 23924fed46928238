import TagOutline.Proofs.Archive.Store
import TagOutline.Proofs.Outline.Module
import TagOutline.Proofs.Outline.Printing

/-!
# Outlines of a dialect in the archive

The outline of a module in a dialect is made of entities that JSON holds, in the classes of that
dialect. So it is loaded as it was saved.
-/

namespace TagOutline

variable {parse : ByteArray → Script.SyntaxNode} {o : OutlineOptions} {σ : Schedule} {d : Dialect}
  {e : Entity} {cs : List Entity}

/-- What texts are made of is found in the outline of one of them. -/
theorem isOutlined_of_moduleOutline {w : Workspace} {patterns : List String}
    (h : (moduleOutline parse o σ w patterns).result = .ok cs) : ∀ e ∈ cs, e.IsOutlined o := by
  rw [moduleOutline_result_ok_iff] at h
  obtain ⟨-, rfl⟩ := h
  intro e he
  obtain ⟨path, -, he⟩ := List.mem_flatMap.mp he
  unfold foundAt at he
  split at he
  · cases he
  next text htext =>
    obtain ⟨comment, -, he⟩ := List.mem_flatMap.mp he
    unfold Logged.found at he
    split at he
    · cases he
    next es hes => exact isOutlined_of_outline hes e he

namespace Entity

theorem IsPlain.hasJsonBody (h : e.IsPlain o) : e.HasJsonBody := by
  obtain ⟨n, hname, -⟩ := h.name
  refine ⟨hname ▸ .text n, .record ?_ h.distinct ?_⟩
  · intro a ha
    obtain ⟨w, rfl, -⟩ := h.attributes a ha
    exact ⟨w.1, rfl⟩
  · intro a ha
    obtain ⟨w, rfl, -⟩ := h.attributes a ha
    exact .text _

theorem IsOutlined.isStorable (h : e.IsOutlined o) (leaf : o.childClass.isContainer = false) :
    e.IsStorable where
  toHasJsonBody := h.toIsPlain.hasJsonBody
  able := h.able
  children c hc := by
    obtain ⟨hcls, none, plain⟩ := h.children c hc
    exact ⟨hcls ▸ leaf, none, plain.hasJsonBody⟩

/-- An entity of a dialect is rebuilt as itself. -/
theorem IsOutlined.recast_eq (h : e.IsOutlined (.ofDialect d)) : e.recast d.containerClass = e := by
  have hcls : e.cls = d.containerClass := h.cls
  rw [← hcls]
  apply recast_self
  intro c hc
  obtain ⟨hchild, none, -⟩ := h.children c hc
  rw [hcls, d.childClass_containerClass]
  exact ⟨hchild, none⟩

end Entity

namespace Archive

/-- What is found in a module can be stored. -/
theorem isStorable_of_moduleOutline {w : Workspace} {patterns : List String}
    (outlined : (moduleOutline parse (.ofDialect d) σ w patterns).result = .ok cs) :
    ∀ e ∈ cs, e.IsStorable ∧ e.cls.isContainer = true := by
  have entities := isOutlined_of_moduleOutline outlined
  have leaf : d.childClass.isContainer = false := by cases d <;> rfl
  intro e he
  refine ⟨(entities e he).isStorable leaf, ?_⟩
  rw [(entities e he).cls]
  exact isContainer_containerClass d

/-- What is found in a module is rebuilt as itself. -/
theorem recast_of_moduleOutline {w : Workspace} {patterns : List String}
    (outlined : (moduleOutline parse (.ofDialect d) σ w patterns).result = .ok cs) :
    cs.map (Entity.recast d.containerClass) = cs := by
  have entities := isOutlined_of_moduleOutline outlined
  conv_rhs => rw [← List.map_id cs]
  exact List.map_congr_left fun e he => (entities e he).recast_eq

/-- The outline of a module is read from its document. -/
theorem ofDocument_of_moduleOutline {w : Workspace} {patterns : List String}
    (outlined : (moduleOutline parse (.ofDialect d) σ w patterns).result = .ok cs) :
    ofDocument (document d cs) = .ok cs := by
  have storable := isStorable_of_moduleOutline outlined
  rw [ofDocument_document d fun e he => (storable e he).2, recast_of_moduleOutline outlined]

/-- The outline of a module is loaded where its text is found. -/
theorem load_of_moduleOutline {w w' : Workspace} {patterns : List String} {path : String}
    {l : Location} (outlined : (moduleOutline parse (.ofDialect d) σ w patterns).result = .ok cs)
    (h : w'.find path = .ok (l, .file (Text.Utf8.encode (savedText d cs)))) :
    load w' path = .ok cs := by
  rw [load_of_find (isStorable_of_moduleOutline outlined) h, recast_of_moduleOutline outlined]

end Archive

end TagOutline
