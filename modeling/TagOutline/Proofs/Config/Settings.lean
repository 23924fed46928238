import TagOutline.Config.Settings

/-!
# Settings that are loaded

What is loaded is the configuration of a file that can be read, decoded and validated, each of them
as the loader does, or the standard one where no file is asked for and none is there. A dialect is
known by its name, so the options for reading and for rendering can be made from the name that a
configuration has.
-/

namespace TagOutline

variable {l : Loader} {t : Settings} {w : Workspace} {path : Option String}

@[simp] theorem mapError_ok {ε ε' α : Type} (f : ε → ε') (a : α) :
    (Except.ok a).mapError f = .ok a := rfl

@[simp] theorem mapError_error {ε ε' α : Type} (f : ε → ε') (e : ε) :
    (Except.error e : Except ε α).mapError f = .error (f e) := rfl

/-- A dialect is set by its name and by nothing else. -/
theorem Dialect.ofValue_eq_ok_iff {v : Value} {d : Dialect} :
    Dialect.ofValue v = .ok d ↔ v = .text d.name := by
  constructor
  · intro h
    unfold ofValue at h
    split at h
    next name =>
      split at h
      next found =>
        cases h
        have named := List.find?_some found
        rw [eq_of_beq named]
      · cases h
    · cases h
  · rintro rfl
    simp [ofValue]

namespace Settings

/-- A configuration is read by three steps, each of which can fail. -/
theorem readConfig_eq_ok_iff {path : String} {c : Config} :
    readConfig l w path = .ok c ↔ ∃ text v, w.readText path = .ok text ∧
      Json.readWithin l.depth text = .ok v ∧ l.validate v = .ok c := by
  unfold readConfig
  cases htext : w.readText path with
  | error e => simp
  | ok text =>
    cases hv : Json.readWithin l.depth text with
    | error fault => simp [hv]
    | ok v => cases hc : l.validate v <;> simp [hv, hc]

theorem loadFile_eq_ok_iff {path : String} :
    (loadFile l w path).result = .ok t ↔ readConfig l w path = .ok t.config ∧ t.path = path := by
  obtain ⟨config, source⟩ := t
  unfold loadFile
  cases readConfig l w path with
  | error e => simp
  | ok c => simp [eq_comm]

theorem load_none_of_hasPath (h : w.hasPath standardPath = true) :
    load l w none = loadFile l w standardPath := by
  rw [load, if_pos h]

theorem load_none_of_not_hasPath (h : w.hasPath standardPath = false) :
    load l w none = ⟨[.configMissing], .ok standard⟩ := by
  rw [load, if_neg (by simp [h])]

/-- The settings that were loaded are those of a file and know its path, or else no path was given
and they are the standard ones. -/
theorem load_eq_ok_iff :
    (load l w path).result = .ok t ↔
      (∃ p, (path = some p ∨ path = none ∧ p = standardPath ∧ w.hasPath p = true) ∧
        readConfig l w p = .ok t.config ∧ t.path = p) ∨
      path = none ∧ w.hasPath standardPath = false ∧ t = standard := by
  constructor
  · intro h
    cases path with
    | some p => exact Or.inl ⟨p, Or.inl rfl, loadFile_eq_ok_iff.mp h⟩
    | none =>
      cases there : w.hasPath standardPath with
      | true =>
        rw [load_none_of_hasPath there] at h
        exact Or.inl ⟨standardPath, Or.inr ⟨rfl, rfl, there⟩, loadFile_eq_ok_iff.mp h⟩
      | false =>
        rw [load_none_of_not_hasPath there] at h
        exact Or.inr ⟨rfl, rfl, (Except.ok.inj h).symm⟩
  · rintro (⟨p, rfl | ⟨rfl, rfl, there⟩, file⟩ | ⟨rfl, missing, rfl⟩)
    · exact loadFile_eq_ok_iff.mpr file
    · rw [load_none_of_hasPath there]
      exact loadFile_eq_ok_iff.mpr file
    · rw [load_none_of_not_hasPath missing]

/-- Nothing is told about a file that cannot be loaded. -/
theorem load_of_error {e : ConfigError} (h : (load l w path).result = .error e) :
    load l w path = ⟨[], .error e⟩ := by
  have file : ∀ p, (loadFile l w p).result = .error e → loadFile l w p = ⟨[], .error e⟩ := by
    intro p hp
    unfold loadFile at hp ⊢
    split at hp
    · cases hp
      rfl
    · cases hp
  cases path with
  | some p => exact file p h
  | none =>
    cases there : w.hasPath standardPath with
    | true =>
      rw [load_none_of_hasPath there] at h ⊢
      exact file standardPath h
    | false =>
      rw [load_none_of_not_hasPath there] at h
      cases h

/-- The settings in another dialect, if there is one. -/
def inDialect (s : Settings) (d : Option Dialect) : Settings :=
  { s with config := { s.config with dialect := d.getD s.config.dialect } }

theorem setDialect_eq (s : Settings) (v : Value) :
    s.setDialect v = (Dialect.ofValue v).map fun d => s.inDialect (some d) := by
  unfold setDialect
  cases Dialect.ofValue v <;> rfl

/-- The options for reading outlines, made from the name of the dialect. -/
def outlineOptions? (s : Settings) : Except UnknownDialect OutlineOptions :=
  (Dialect.ofValue (.text s.config.dialect.name)).map .ofDialect

/-- The style of the rendering, made from the name of the dialect. -/
def renderStyle? (s : Settings) : Except UnknownDialect RenderStyle :=
  (Dialect.ofValue (.text s.config.dialect.name)).map fun d =>
    ⟨d.containerTag, d.childTag, s.config.indent, s.config.ignored.map .text⟩

end Settings

end TagOutline
