import TagOutline.Proofs.CommandLine.Output
import TagOutline.Proofs.Config.Settings
import TagOutline.Proofs.Json.Room
import TagOutline.Proofs.Outline.Orphan

/-!
# Runs that fail

A run loads its settings, collects an outline and writes it, and the first of these that fails ends
it. Not every kind of error is handled. The classes of a dialect have all that is asked of them, so
what is not handled can only be that the text of a configuration is nested deeper than its reader
has room for. What fails before the writing leaves the workspace alone.
-/

namespace TagOutline

theorem TextFileError.isHandled_kind (e : TextFileError) : e.kind.isHandled = true := by
  cases e <;> rfl

/-- Of the errors of loading only one is not handled. -/
theorem ConfigError.isHandled_kind_or_tooDeep (e : ConfigError) : e.kind.isHandled = true ∨
    ∃ text fault, e = .syntactic text fault ∧ fault.cause.isTooDeep = true := by
  cases e with
  | unreadable error => exact Or.inl error.isHandled_kind
  | syntactic text fault =>
    cases deep : fault.cause.isTooDeep with
    | true => exact Or.inr ⟨text, fault, rfl, deep⟩
    | false => simp [kind, Json.Fault.kind, deep, ErrorKind.isHandled]
  | invalid rejection => exact Or.inl rfl

theorem Archive.SaveError.isHandled_kind (e : SaveError) : e.kind.isHandled = true := by
  cases e <;> rfl

variable {parse : ByteArray → Script.SyntaxNode} {σ : Schedule} {d : Dialect} {w : Workspace}
  {cs : List Entity}

/-! The classes of a dialect. -/

/-- In a dialect, a text fails to be an outline only by its tags. -/
theorem isHandled_of_outline {text : String} {e : OutlineError}
    (h : (outline (.ofDialect d) text).result = .error e) : e.kind.isHandled = true := by
  obtain ⟨t, -, rfl⟩ := (outline_eq_error_iff (Archive.isContainer_containerClass d) text e).mp h
  rfl

theorem isHandled_of_faultAt? {path : String} {e : ModuleError}
    (h : faultAt? parse (outline (.ofDialect d)) w path = some e) : e.kind.isHandled = true := by
  unfold faultAt? at h
  split at h
  next error unread =>
    cases h
    exact error.isHandled_kind
  next text read =>
    obtain ⟨error, failed, rfl⟩ := Option.map_eq_some_iff.mp h
    obtain ⟨comment, -, failed⟩ := List.exists_of_findSome?_eq_some failed
    exact isHandled_of_outline (Logged.result_of_error? failed)

namespace Entity

/-- What a dialect makes of tags can be rendered. -/
theorem IsOutlined.exists_toHtml {e : Entity} (h : e.IsOutlined (.ofDialect d))
    (style : RenderStyle) : ∃ lines, toHtml style none e = .ok lines := by
  have container : d.containerClass ≠ .base := by cases d <;> decide
  have child : d.childClass ≠ .base := by cases d <;> decide
  refine Entity.exists_toHtml (h.cls ▸ container) ?_
  intro c hc
  obtain ⟨hcls, none, -⟩ := h.children c hc
  refine Entity.exists_toHtml (hcls ▸ child) ?_
  rw [none]
  intro x hx
  cases hx

end Entity

/-! Modules. -/

section Modules

variable {o : OutlineOptions} {patterns : List String}

/-- A module with a file that fails has an error, which is that of one of its files. If the files
are read one after another, it is that of the first that has one. -/
theorem exists_fault_of_mem {path : String} {fault : ModuleError}
    (member : path ∈ (Glob.expand w patterns).2)
    (failed : (fileOutline parse o w path).result = .error fault) :
    ∃ e, (moduleOutline parse o σ w patterns).result = .error e ∧
      (∃ first ∈ (Glob.expand w patterns).2, (fileOutline parse o w first).result = .error e) ∧
      (σ.workers ≤ 1 → ∃ before first after, (Glob.expand w patterns).2 = before ++ first :: after ∧
        (∀ f ∈ before, ∃ cs, (fileOutline parse o w f).result = .ok cs) ∧
        (fileOutline parse o w first).result = .error e) := by
  cases result : (moduleOutline parse o σ w patterns).result with
  | ok cs =>
    have none := (moduleOutline_result_ok_iff.mp result).1 path member
    rw [fileOutline_eq_error_iff.mp failed] at none
    cases none
  | error e =>
    refine ⟨e, rfl, exists_fault_of_moduleOutline result, fun single => ?_⟩
    obtain ⟨n, reads⟩ := exists_isReadBy_moduleOutline parse o σ w patterns
    have inOrder := (reads.inOrder single).2
    rw [result, eq_comm, firstErrorOrAll_eq_error_iff] at inOrder
    simpa only [exists_fileOutline_iff, fileOutline_eq_error_iff] using inOrder

theorem isHandled_of_moduleOutline {e : ModuleError}
    (h : (moduleOutline parse (.ofDialect d) σ w patterns).result = .error e) :
    e.kind.isHandled = true := by
  obtain ⟨path, -, failed⟩ := exists_fault_of_moduleOutline h
  exact isHandled_of_faultAt? (fileOutline_eq_error_iff.mp failed)

end Modules

namespace CommandLine

variable {h : Host} {a : Arguments} {p q : Program} {shown : String}

/-! The end of work, as it is shown. -/

theorem Ended.shown_of_ok {e : Ended} (done : e.result = .ok ()) :
    e.shown = ⟨.ok 0, e.output, ""⟩ := by
  rw [Ended.shown, done]

theorem Ended.shown_of_isHandled {e : Ended} {error : RunError} (failed : e.result = .error error)
    (handled : error.kind.isHandled = true) :
    e.shown = ⟨.ok 1, e.output, failureText error.message⟩ := by
  rw [Ended.shown, failed]
  exact if_pos handled

theorem Ended.shown_of_not_isHandled {e : Ended} {error : RunError}
    (failed : e.result = .error error) (unhandled : error.kind.isHandled = false) :
    e.shown = ⟨.error error, e.output, ""⟩ := by
  rw [Ended.shown, failed]
  exact if_neg (by simp [unhandled])

theorem collect_of_error {e : ModuleError} (faulty : (moduleOutline h.parse
    q.settings.config.outlineOptions h.schedule q.workspace a.patterns).result = .error e) :
    collect h a q =
      moduleOutline h.parse q.settings.config.outlineOptions h.schedule q.workspace a.patterns := by
  simp only [collect, faulty]

theorem collect_eq_error_iff {e : ModuleError} : (collect h a q).result = .error e ↔
    (moduleOutline h.parse q.settings.config.outlineOptions h.schedule q.workspace
      a.patterns).result = .error e := by
  unfold collect
  dsimp only
  cases found : (moduleOutline h.parse q.settings.config.outlineOptions h.schedule q.workspace
      a.patterns).result with
  | error f => rw [found]
  | ok cs => simp

theorem isHandled_of_write {e : RunError} (collected : (collect h a q).result = .ok cs)
    (failed : (write a q shown cs).2.result = .error e) : e.kind.isHandled = true := by
  unfold write at failed
  split at failed
  · unfold writeJson at failed
    dsimp only at failed
    split at failed
    · cases failed
    · cases saved : (Archive.save q.workspace a.outputPath cs
          (.text q.settings.config.dialect.name)).2 with
      | ok u =>
        rw [saved] at failed
        cases failed
      | error error =>
        rw [saved] at failed
        cases failed
        exact error.isHandled_kind
  · have entities := isOutlined_of_moduleOutline (moduleOutline_of_collected collected).1
    obtain ⟨lines, rendered⟩ := Entity.exists_childrenHtml fun e he =>
      (entities e he).exists_toHtml q.settings.config.renderStyle
    rw [writeHtml, htmlText, rendered] at failed
    dsimp only [Except.map] at failed
    split at failed
    · cases failed
    · split at failed
      · cases failed
      · cases failed
        rfl

/-! Runs that end before they write. -/

/-- What a run loads first. -/
def loading (h : Host) (a : Arguments) (w : Workspace) : Logged ConfigError Settings :=
  Settings.load h.loader w (if a.configPath.isEmpty then none else some a.configPath)

/-- The program with the settings that were loaded for a run. -/
def withSettings (a : Arguments) (p : Program) (settings : Settings) : Program :=
  { p with
    settings := settings.inDialect a.dialect
    printLevel := if a.verbose then Level.rank .debug else settings.config.printLevel }

theorem configure_eq (h : Host) (a : Arguments) (p : Program) :
    configure h a p = ⟨(loading h a p.workspace).notices,
      (loading h a p.workspace).result.map (withSettings a p)⟩ := rfl

theorem configure_of_loaded {settings : Settings}
    (loaded : (loading h a p.workspace).result = .ok settings) :
    configure h a p = ⟨(loading h a p.workspace).notices, .ok (withSettings a p settings)⟩ := by
  rw [configure_eq, loaded]
  rfl

/-- Where the settings cannot be loaded, a run ends there. -/
theorem runArguments_of_unloaded {e : ConfigError}
    (unloaded : (loading h a p.workspace).result = .error e) :
    runArguments h a p = (p, ⟨"", .error (.config e)⟩) := by
  have silent : configure h a p = ⟨[], .error e⟩ := by
    rw [configure_eq, loading, Settings.load_of_error unloaded]
    rfl
  rw [runArguments, silent]
  rfl

/-- Where the outline has an error, a run ends before it writes. -/
theorem runArguments_of_faulty {settings : Settings} {e : ModuleError}
    (loaded : (loading h a p.workspace).result = .ok settings)
    (faulty : (moduleOutline h.parse (.ofDialect (a.dialect.getD settings.config.dialect)) h.schedule
      p.workspace a.patterns).result = .error e) :
    runArguments h a p = (withSettings a p settings,
      ⟨Notice.shown p.printLevel (loading h a p.workspace).notices ++
        Notice.shown (withSettings a p settings).printLevel
          (moduleOutline h.parse (.ofDialect (a.dialect.getD settings.config.dialect)) h.schedule
            p.workspace a.patterns).notices, .error (.outline e)⟩) := by
  have collected : collect h a (withSettings a p settings) =
      moduleOutline h.parse (.ofDialect (a.dialect.getD settings.config.dialect)) h.schedule
        p.workspace a.patterns :=
    collect_of_error faulty
  rw [runArguments, configure_of_loaded loaded]
  dsimp only
  rw [collected, faulty]

/-- The work of a run ends with no error that is not handled, but that a configuration is nested too
deep. -/
theorem isHandled_of_runArguments {e : RunError}
    (failed : (runArguments h a p).2.result = .error e) :
    e.kind.isHandled = true ∨ ∃ text fault, e = .config (.syntactic text fault) ∧
      fault.cause.isTooDeep = true ∧
        (loading h a p.workspace).result = .error (.syntactic text fault) := by
  cases loaded : (loading h a p.workspace).result with
  | error error =>
    rw [runArguments_of_unloaded loaded] at failed
    cases failed
    rcases error.isHandled_kind_or_tooDeep with handled | ⟨text, fault, rfl, deep⟩
    · exact Or.inl handled
    · exact Or.inr ⟨text, fault, rfl, deep, rfl⟩
  | ok settings =>
    have configured := congrArg Logged.result (configure_of_loaded loaded)
    left
    cases collected : (collect h a (withSettings a p settings)).result with
    | error error =>
      have faulty := collect_eq_error_iff.mp collected
      rw [runArguments_of_faulty loaded faulty] at failed
      cases failed
      exact isHandled_of_moduleOutline faulty
    | ok cs =>
      rw [runArguments_of_collected configured collected] at failed
      exact isHandled_of_write collected failed

/-- Where the file at the standard path opens more lists than the reader has room for, a run that is
not asked for another configuration ends with an error that is not handled. -/
theorem exists_recursion_of_nested {texts : List String}
    (accepted : CommandLine.parse texts = .ok (.run a)) (unasked : a.configPath = "") {l : Location} {n : Nat} {rest : List Char}
    (found : p.workspace.find Settings.standardPath =
      .ok (l, .file (Text.Utf8.encode (String.ofList (List.replicate n '[' ++ rest)))))
    (plain : '\r' ∉ rest) (deep : h.loader.depth < n) :
    ∃ e, (run h texts p).2.ending = .error e ∧ e.kind = .recursion := by
  have text := Archive.readText_of_find found (by simpa using plain)
  obtain ⟨remaining, fault⟩ := Json.readWithin_nested deep rest
  have there : p.workspace.hasPath Settings.standardPath = true := by
    rw [Workspace.hasPath, found]
    rfl
  have config : Settings.readConfig h.loader p.workspace Settings.standardPath =
      .error (.syntactic (String.ofList (List.replicate n '[' ++ rest))
        ⟨.tooDeepList, remaining⟩) := by
    simp only [Settings.readConfig, text, fault]
  have unloaded : (loading h a p.workspace).result =
      .error (.syntactic (String.ofList (List.replicate n '[' ++ rest))
        ⟨.tooDeepList, remaining⟩) := by
    rw [loading, if_pos (by simp [unasked]), Settings.load_none_of_hasPath there,
      Settings.loadFile, config]
  have ends := congrArg (fun done => done.2.result) (runArguments_of_unloaded unloaded)
  rw [run_of_parse accepted, Ended.shown_of_not_isHandled ends rfl]
  exact ⟨_, rfl, rfl⟩

end CommandLine

end TagOutline
