import Mathlib.Data.List.Induction
import TagOutline.Config.Setup
import TagOutline.Config.Validation
import TagOutline.Proofs.Config.Settings

/-!
# Settings that follow requests

The settings in use are asked to change again and again: to be loaded, to have another dialect, to
be as they were at first. Each request is worked off step by step, and what was assigned before an
error stays assigned. But errors come before all assignments, so a request that fails changes
nothing, and after any requests the settings are those of the last load or reset that went well, in
the last dialect that was set behind it.
-/

namespace TagOutline

namespace Setup

variable {α β : Type}

/-! Running the steps. -/

theorem run_bind (u : Setup) (x : Work α) (f : α → Work β) :
    u.run (x >>= f) =
      match u.run x with
      | (.ok a, u') => u'.run (f a)
      | (.error e, u') => (.error e, u') := by
  show (ExceptT.run x >>= ExceptT.bindCont f) u = _
  show ExceptT.bindCont f (u.run x).1 (u.run x).2 = _
  obtain ⟨result, u'⟩ := u.run x
  cases result <;> rfl

@[simp] theorem run_check {ε : Type} (u : Setup) (result : Except ε α) (error : ε → RequestError) :
    u.run (check result error) = (result.mapError error, u) := rfl

@[simp] theorem run_assignConfig (u : Setup) (c : Config) :
    u.run (assignConfig c) = (.ok (), ⟨⟨c, u.settings.path⟩, u.notices⟩) := rfl

@[simp] theorem run_assignPath (u : Setup) (path : String) :
    u.run (assignPath path) = (.ok (), ⟨⟨u.settings.config, path⟩, u.notices⟩) := rfl

@[simp] theorem run_tell (u : Setup) (n : Notice) :
    u.run (tell n) = (.ok (), ⟨u.settings, u.notices ++ [n]⟩) := rfl

@[simp] theorem run_reset (u : Setup) : u.run reset = (.ok (), ⟨.standard, u.notices⟩) := rfl

/-- The setup that loading leads to, by what is loaded. -/
def takeOver (u : Setup) (x : Logged ConfigError Settings) : Except RequestError Unit × Setup :=
  match x.result with
  | .ok s => (.ok (), ⟨s, u.notices ++ x.notices⟩)
  | .error e => (.error (.config e), ⟨u.settings, u.notices ++ x.notices⟩)

/-- Loading step by step leads to the settings that are loaded at once. -/
theorem run_loadFile (u : Setup) (l : Loader) (w : Workspace) (path : String) :
    u.run (loadFile l w path) = u.takeOver (Settings.loadFile l w path) := by
  unfold loadFile Settings.loadFile Settings.readConfig
  rw [run_bind, run_check]
  cases w.readText path with
  | error e => simp [takeOver]
  | ok text =>
    simp only [mapError_ok, run_bind, run_check]
    cases Json.readWithin l.depth text with
    | error fault => simp [takeOver]
    | ok v =>
      dsimp only [mapError_ok]
      cases l.validate v with
      | error rejection => simp [takeOver]
      | ok c => simp [takeOver]

theorem run_load (u : Setup) (l : Loader) (w : Workspace) (path : Option String) :
    u.run (load l w path) = u.takeOver (Settings.load l w path) := by
  unfold load
  cases path with
  | some path => exact run_loadFile u l w path
  | none =>
    cases there : w.hasPath Settings.standardPath with
    | true =>
      rw [Settings.load_none_of_hasPath there]
      exact run_loadFile u l w _
    | false =>
      rw [Settings.load_none_of_not_hasPath there]
      simp [run_bind, takeOver]

theorem run_setDialect (u : Setup) (v : Value) :
    u.run (setDialect v) =
      match u.settings.setDialect v with
      | .ok s => (.ok (), ⟨s, u.notices⟩)
      | .error e => (.error (.dialect e), u) := by
  rw [Settings.setDialect_eq, setDialect, run_bind, run_check]
  cases Dialect.ofValue v with
  | error e => rfl
  | ok d => rfl

/-! What counts in the end. -/

namespace Request

/-- The settings that a request puts in the place of all others, if it goes well. -/
def replacement? (l : Loader) : Request → Option Settings
  | .load w path => (Settings.load l w path).result.toOption
  | .dialect _ => none
  | .reset => some .standard

/-- The dialect that a request sets, if it goes well. -/
def dialect? : Request → Option Dialect
  | .dialect v => (Dialect.ofValue v).toOption
  | _ => none

/-- The settings of the last request that replaced them, or the first ones. -/
def lastReplacement (l : Loader) (rs : List Request) : Settings :=
  (rs.reverse.findSome? (replacement? l)).getD .standard

/-- The dialect that was set last behind all replacements. -/
def lastDialect? (l : Loader) (rs : List Request) : Option Dialect :=
  (rs.reverse.takeWhile fun r => (r.replacement? l).isNone).findSome? dialect?

variable {l : Loader} {r : Request} {s : Settings}

theorem lastReplacement_concat (rs : List Request) (r : Request) :
    lastReplacement l (rs ++ [r]) = (r.replacement? l).getD (lastReplacement l rs) := by
  rw [lastReplacement, List.reverse_append]
  cases h : r.replacement? l <;> simp [lastReplacement, h]

theorem lastDialect?_concat_of_replaced (rs : List Request) (h : r.replacement? l = some s) :
    lastDialect? l (rs ++ [r]) = none := by
  rw [lastDialect?, List.reverse_append]
  simp [h]

theorem lastDialect?_concat (rs : List Request) (h : r.replacement? l = none) :
    lastDialect? l (rs ++ [r]) = r.dialect?.or (lastDialect? l rs) := by
  rw [lastDialect?, List.reverse_append]
  cases hd : r.dialect? <;> simp [lastDialect?, h, hd]

end Request

/-- What a request leads to: it is refused, it replaces the settings, or it sets a dialect. -/
inductive Meets (l : Loader) (u : Setup) (r : Request) : Except RequestError Unit × Setup → Prop where
  | refused (e : RequestError) (told : List Notice) (kept : r.replacement? l = none)
      (unset : r.dialect? = none) : Meets l u r (.error e, ⟨u.settings, told⟩)
  | replaced (s : Settings) (told : List Notice) (replaced : r.replacement? l = some s) :
      Meets l u r (.ok (), ⟨s, told⟩)
  | set (d : Dialect) (told : List Notice) (kept : r.replacement? l = none)
      (set : r.dialect? = some d) : Meets l u r (.ok (), ⟨u.settings.inDialect (some d), told⟩)

theorem meets_perform (l : Loader) (u : Setup) (r : Request) :
    Meets l u r (u.run (perform l r)) := by
  cases r with
  | load w path =>
    rw [perform, run_load, takeOver]
    cases h : (Settings.load l w path).result with
    | ok s => exact .replaced s _ (by simp [Request.replacement?, h, Except.toOption])
    | error e => exact .refused _ _ (by simp [Request.replacement?, h, Except.toOption]) rfl
  | dialect v =>
    rw [perform, run_setDialect, Settings.setDialect_eq]
    cases h : Dialect.ofValue v with
    | ok d => exact .set d _ rfl (by simp [Request.dialect?, h, Except.toOption])
    | error e => exact .refused _ _ rfl (by simp [Request.dialect?, h, Except.toOption])
  | reset => exact .replaced _ _ rfl

theorem after_concat (l : Loader) (u : Setup) (rs : List Request) (r : Request) :
    u.after l (rs ++ [r]) = ((u.after l rs).run (perform l r)).2 := by
  simp [after]

/-- The last replacement counts, and the last dialect behind it. -/
theorem settings_after (l : Loader) (rs : List Request) :
    (start.after l rs).settings =
      (Request.lastReplacement l rs).inDialect (Request.lastDialect? l rs) := by
  induction rs using List.reverseRecOn with
  | nil => rfl
  | append_singleton rs r ih =>
    rw [after_concat, Request.lastReplacement_concat]
    have meets := meets_perform l (start.after l rs) r
    generalize (start.after l rs).run (perform l r) = outcome at meets ⊢
    cases meets with
    | refused e told kept unset =>
      rw [Request.lastDialect?_concat rs kept, kept, unset]
      exact ih
    | replaced s told replaced =>
      rw [Request.lastDialect?_concat_of_replaced rs replaced, replaced]
      rfl
    | set d told kept set =>
      rw [Request.lastDialect?_concat rs kept, kept, set, ih]
      rfl

/-- A request fails if and only if it neither replaces the settings nor sets a dialect. Then it
changes nothing. -/
theorem run_perform_eq_error_iff (l : Loader) (u : Setup) (r : Request) :
    ((∃ e, (u.run (perform l r)).1 = .error e) ↔ r.replacement? l = none ∧ r.dialect? = none) ∧
      ∀ e, (u.run (perform l r)).1 = .error e → (u.run (perform l r)).2.settings = u.settings := by
  have meets := meets_perform l u r
  generalize u.run (perform l r) = outcome at meets
  cases meets with
  | refused e told kept unset => exact ⟨⟨fun _ => ⟨kept, unset⟩, fun _ => ⟨e, rfl⟩⟩, fun _ _ => rfl⟩
  | replaced s told replaced => simp [replaced]
  | set d told kept set => simp [set]

/-- After any requests for other settings, the settings are those of the last load or reset that
went well, with only the dialect set by the last request for one behind it that went well. They know
the path of the file that they were loaded from, which is empty after a reset and where there was no
file to load. A request that fails changes nothing; it fails if the file cannot be read, or not be
decoded by the reader of the loader, or is rejected by its validator, or if the dialect is not
known. The options for reading and for rendering can always be made and are those of one dialect. -/
theorem settings_follow_requests (l : Loader) (rs : List Request) :
    let u := start.after l rs
    let base := Request.lastReplacement l rs
    let d := (Request.lastDialect? l rs).getD base.config.dialect
    u.settings = ⟨{ base.config with dialect := d }, base.path⟩ ∧
    (d.name = "form" ∨ d.name = "node") ∧
    u.settings.outlineOptions? = .ok u.settings.config.outlineOptions ∧
    u.settings.renderStyle? = .ok u.settings.config.renderStyle ∧
    u.settings.config.outlineOptions = ⟨u.settings.config.renderStyle.containerTag,
      u.settings.config.renderStyle.childTag, d.containerClass, d.childClass⟩ ∧
    (∀ r e, (u.run (perform l r)).1 = .error e → (u.run (perform l r)).2.settings = u.settings) ∧
    (∀ r, (∃ e, (u.run (perform l r)).1 = .error e) ↔ r.replacement? l = none ∧ r.dialect? = none) ∧
    (∀ v d, (Request.dialect v).dialect? = some d ↔ v = .text d.name) ∧
    ∀ w path s, (Request.load w path).replacement? l = some s ↔
      (∃ p, (path = some p ∨
          path = none ∧ p = Settings.standardPath ∧ w.hasPath p = true) ∧
        (∃ text v, w.readText p = .ok text ∧ Json.readWithin l.depth text = .ok v ∧
          l.validate v = .ok s.config) ∧ s.path = p) ∨
      path = none ∧ w.hasPath Settings.standardPath = false ∧ s = ⟨.standard, ""⟩ := by
  intro u base d
  have settings : u.settings = ⟨{ base.config with dialect := d }, base.path⟩ := settings_after l rs
  have named (d : Dialect) : Dialect.ofValue (.text d.name) = .ok d :=
    Dialect.ofValue_eq_ok_iff.mpr rfl
  have found {ε α : Type} (x : Except ε α) (a : α) : x.toOption = some a ↔ x = .ok a := by
    cases x <;> simp [Except.toOption]
  refine ⟨settings, ?_, ?_, ?_, ?_, ?_, ?_, ?_, ?_⟩
  · cases d with
    | form => exact Or.inl rfl
    | node => exact Or.inr rfl
  · rw [Settings.outlineOptions?, named]
    rfl
  · rw [Settings.renderStyle?, named]
    rfl
  · rw [settings]
    rfl
  · exact fun r => (run_perform_eq_error_iff l u r).2
  · exact fun r => (run_perform_eq_error_iff l u r).1
  · intro v d
    rw [Request.dialect?, found]
    exact Dialect.ofValue_eq_ok_iff
  · intro w path s
    simp only [← Settings.readConfig_eq_ok_iff]
    rw [Request.replacement?, found]
    exact Settings.load_eq_ok_iff

/-- A file is loaded and the dialect of nodes is set. Then a file that is no configuration, one that
is not there and a dialect that is not known change nothing, and a load without a path finds no file
and replaces all. -/
theorem settings_follow_requests_failing_loads :
    let w : Workspace := ⟨[(["c.json"], .file (Text.Utf8.encode "\x7b\x7d")),
      (["list.json"], .file (Text.Utf8.encode "[]"))]⟩
    let l : Loader := ⟨990, Config.validate⟩
    let rs : List Request := [.load w (some "c.json"), .dialect (.text "node"),
      .load w (some "list.json"), .load w (some "gone.json"), .dialect (.text "table")]
    (start.after l rs).settings = ⟨⟨.node, ["desc", "description"], "  ", 1⟩, "c.json"⟩ ∧
      (start.after l rs).settings.outlineOptions? = .ok ⟨"node", "property", .node, .property⟩ ∧
      (start.after l (rs ++ [.load w none])).settings = .standard := by
  intro w l rs
  obtain ⟨last, -, options, -⟩ := settings_follow_requests l rs
  obtain ⟨replaced, -⟩ := settings_follow_requests l (rs ++ [.load w none])
  have last : (start.after l rs).settings = ⟨⟨.node, ["desc", "description"], "  ", 1⟩, "c.json"⟩ :=
    last.trans (by rfl)
  refine ⟨last, ?_, replaced.trans (by rfl)⟩
  rw [options, last]
  rfl

end Setup

end TagOutline
