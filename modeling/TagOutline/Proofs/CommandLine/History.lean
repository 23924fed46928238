import TagOutline.Proofs.CommandLine.Screen

/-!
# Runs that know no history

A program keeps its settings and its print level from one run to the next. A run puts settings and a
print level of its own in their place before it looks at either, and only the notices of loading the
settings are shown at the print level that it has found. So what a run does depends on the files
alone, and of the schedule by which they are read depends only what is told about them, and which of
two files that fail it is whose error is shown.
-/

namespace TagOutline

/-- Loading tells nothing but where the settings come from. -/
theorem Settings.level_of_mem_load {l : Loader} {w : Workspace} {path : Option String} {n : Notice}
    (hn : n ∈ (load l w path).notices) : n.level = .info := by
  have file : ∀ p, n ∈ (loadFile l w p).notices → n.level = .info := by
    intro p hp
    unfold loadFile at hp
    split at hp
    · cases hp
    · rw [List.mem_singleton.mp hp]
      rfl
  cases path with
  | some p => exact file p hn
  | none =>
    cases there : w.hasPath standardPath with
    | true =>
      rw [load_none_of_hasPath there] at hn
      exact file standardPath hn
    | false =>
      rw [load_none_of_not_hasPath there] at hn
      rw [List.mem_singleton.mp hn]
      rfl

namespace CommandLine

/-- The same with more of the standard output before it. -/
def Ended.behind (e : Ended) (before : String) : Ended :=
  { e with output := before ++ e.output }

/-- The code and the errors do not depend on what stands on the standard output. -/
theorem Ended.shown_congr {e e' : Ended} (same : e'.result = e.result) :
    e'.shown.ending = e.shown.ending ∧ e'.shown.errors = e.shown.errors := by
  unfold shown
  rw [same]
  split
  · exact ⟨rfl, rfl⟩
  · split <;> exact ⟨rfl, rfl⟩

@[simp] theorem Ended.ending_shown_behind (e : Ended) (before : String) :
    (e.behind before).shown.ending = e.shown.ending :=
  (shown_congr (show (e.behind before).result = e.result from rfl)).1

@[simp] theorem Ended.errors_shown_behind (e : Ended) (before : String) :
    (e.behind before).shown.errors = e.shown.errors :=
  (shown_congr (show (e.behind before).result = e.result from rfl)).2

/-- What a run does behind the loading of its settings. -/
def proceed (h : Host) (a : Arguments) (q : Program) : Program × Ended :=
  let found := collect h a q
  let shown := Notice.shown q.printLevel found.notices
  match found.result with
  | .error e => (q, ⟨shown, .error (.outline e)⟩)
  | .ok cs => write a q shown cs

variable {h : Host} {a : Arguments} {p p' q : Program} {settings : Settings}

/-- Writing changes nothing but files, and what stands on the standard output already is not looked
at. -/
theorem exists_write (a : Arguments) (q : Program) (cs : List Entity) :
    ∃ w text result, ∀ shown,
      write a q shown cs = ({ q with workspace := w }, ⟨shown ++ text, result⟩) := by
  unfold write
  cases a.format with
  | json =>
    simp only [writeJson]
    split
    · exact ⟨_, _, _, fun shown => by rw [String.append_assoc]⟩
    · exact ⟨_, "", _, fun shown => by rw [String.append_empty]⟩
  | html =>
    simp only [writeHtml]
    split
    · exact ⟨q.workspace, "", _, fun shown => by rw [String.append_empty]⟩
    · split
      · exact ⟨_, _, _, fun shown => by rw [String.append_assoc]⟩
      · split
        · exact ⟨_, "", _, fun shown => by rw [String.append_empty]⟩
        · exact ⟨q.workspace, "", _, fun shown => by rw [String.append_empty]⟩

theorem write_behind (a : Arguments) (q : Program) (before shown : String) (cs : List Entity) :
    write a q (before ++ shown) cs =
      ((write a q shown cs).1, (write a q shown cs).2.behind before) := by
  obtain ⟨w, text, result, writes⟩ := exists_write a q cs
  rw [writes, writes, Ended.behind, String.append_assoc]

/-- Two runs write the same, whatever they have shown before. -/
theorem write_congr (a : Arguments) (q : Program) (shown shown' : String) (cs : List Entity) :
    (write a q shown' cs).1 = (write a q shown cs).1 ∧
      (write a q shown' cs).2.result = (write a q shown cs).2.result := by
  obtain ⟨w, text, result, writes⟩ := exists_write a q cs
  rw [writes, writes]
  exact ⟨rfl, rfl⟩

/-- Writing leaves the settings and the print level as they are. -/
theorem write_keeps (a : Arguments) (q : Program) (shown : String) (cs : List Entity) :
    (write a q shown cs).1.settings = q.settings ∧
      (write a q shown cs).1.printLevel = q.printLevel := by
  obtain ⟨w, text, result, writes⟩ := exists_write a q cs
  rw [writes]
  exact ⟨rfl, rfl⟩

theorem proceed_keeps (h : Host) (a : Arguments) (q : Program) :
    (proceed h a q).1.settings = q.settings ∧ (proceed h a q).1.printLevel = q.printLevel := by
  cases found : (collect h a q).result with
  | error e =>
    have ends : (proceed h a q).1 = q := by simp only [proceed, found]
    exact ⟨congrArg Program.settings ends, congrArg Program.printLevel ends⟩
  | ok cs =>
    simp only [proceed, found]
    exact write_keeps a q _ cs

/-- By another schedule a run leaves the same program. It ends in the same way, or else each of the
two ends with the error of a file. -/
theorem proceed_of_schedule (h : Host) (σ : Schedule) (a : Arguments) (q : Program) :
    (proceed { h with schedule := σ } a q).1 = (proceed h a q).1 ∧
      ((proceed { h with schedule := σ } a q).2.result = (proceed h a q).2.result ∨
        ∃ e e', (collect h a q).result = .error e ∧
          (proceed h a q).2.result = .error (.outline e) ∧
          (collect { h with schedule := σ } a q).result = .error e' ∧
          (proceed { h with schedule := σ } a q).2.result = .error (.outline e')) := by
  cases found : (collect h a q).result with
  | ok cs =>
    have found' := (collected_of_collected found σ).1
    simp only [proceed, found, found']
    obtain ⟨program, result⟩ := write_congr a q (Notice.shown q.printLevel (collect h a q).notices)
      (Notice.shown q.printLevel (collect { h with schedule := σ } a q).notices) cs
    exact ⟨program, Or.inl result⟩
  | error e =>
    cases found' : (collect { h with schedule := σ } a q).result with
    | ok cs =>
      have found'' := (collected_of_collected found' h.schedule).1
      exact absurd (found.symm.trans found'') (by simp)
    | error e' =>
      have ends : proceed h a q =
          (q, ⟨Notice.shown q.printLevel (collect h a q).notices, .error (.outline e)⟩) := by
        simp only [proceed, found]
      have ends' : proceed { h with schedule := σ } a q = (q, ⟨Notice.shown q.printLevel
          (collect { h with schedule := σ } a q).notices, .error (.outline e')⟩) := by
        simp only [proceed, found']
      rw [ends, ends']
      exact ⟨rfl, Or.inr ⟨e, e', rfl, rfl, rfl, rfl⟩⟩

/-- The settings and the print level that a run finds have no part in those that it makes. -/
theorem withSettings_congr (files : p'.workspace = p.workspace) :
    withSettings a p' settings = withSettings a p settings := by
  simp only [withSettings, files]

/-- A run that has loaded its settings goes on with these, behind the notices of loading them. -/
theorem runArguments_of_loaded (loaded : (loading h a p.workspace).result = .ok settings) :
    runArguments h a p =
      ((proceed h a (withSettings a p settings)).1,
        (proceed h a (withSettings a p settings)).2.behind
          (Notice.shown p.printLevel (loading h a p.workspace).notices)) := by
  have configured := configure_of_loaded loaded
  cases found : (collect h a (withSettings a p settings)).result with
  | error e =>
    simp only [runArguments, configured, proceed, found]
    rfl
  | ok cs =>
    rw [runArguments_of_collected (congrArg Logged.result configured) found, configured]
    simp only [proceed, found]
    exact write_behind a _ _ _ cs

/-- Below the level of details on the work, nothing of the loading is shown. -/
theorem shown_loading (quiet : p.printLevel < Level.rank .info) :
    Notice.shown p.printLevel (loading h a p.workspace).notices = "" := by
  apply Notice.shown_eq_empty
  intro n hn
  have level : n.level = .info := Settings.level_of_mem_load hn
  simp [Notice.isShown, level, quiet]

/-- An error of a file is handled, and it is that of one of the files that the patterns match. -/
theorem exists_fault_of_collect {e : ModuleError} (failed : (collect h a q).result = .error e) :
    (∃ path ∈ (Glob.expand q.workspace a.patterns).2,
      (fileOutline h.parse q.settings.config.outlineOptions q.workspace path).result = .error e) ∧
    (RunError.outline e).kind.isHandled = true := by
  have faulty := collect_eq_error_iff.mp failed
  exact ⟨exists_fault_of_moduleOutline faulty, isHandled_of_moduleOutline faulty⟩

/-- Two runs of the same arguments over the same files, from any settings and print levels that
earlier work has left. They end with the same code, the same errors and the same files. If the
settings can be loaded, both leave these behind, in the dialect that is asked for, with the print
level that they or the arguments name. Their outputs are the same but for the notices of loading,
each shown at the print level that its run has found, and the same altogether if neither level shows
these. All this is so where both read the files by the same schedule. If they do not, they still end
with the same code and leave the same behind, and with the same errors unless there are two files
that fail, each in its own way. -/
theorem run_forgets_history {texts : List String} (h : Host)
    (accepted : parse texts = .ok (.run a)) (p p' : Program) (files : p'.workspace = p.workspace) :
    let r := run h texts p
    let r' := run h texts p'
    (r'.2.ending = r.2.ending ∧ r'.2.errors = r.2.errors ∧ r'.1.workspace = r.1.workspace ∧
      (∀ settings, (loading h a p.workspace).result = .ok settings →
        r.1.settings = settings.inDialect a.dialect ∧
        r.1.printLevel = (if a.verbose then Level.rank .debug else settings.config.printLevel) ∧
        r'.1 = r.1) ∧
      (∃ rest, r.2.output = Notice.shown p.printLevel (loading h a p.workspace).notices ++ rest ∧
        r'.2.output = Notice.shown p'.printLevel (loading h a p.workspace).notices ++ rest) ∧
      (p.printLevel < Level.rank .info → p'.printLevel < Level.rank .info →
        r'.2.output = r.2.output)) ∧
    ∀ σ, let r' := run { h with schedule := σ } texts p'
      r'.2.code? = r.2.code? ∧ r'.1.workspace = r.1.workspace ∧
      ((loading h a p.workspace).result.isOk = true → r'.1 = r.1) ∧
      (r'.2.errors = r.2.errors ∨
        ∃ settings e e', (loading h a p.workspace).result = .ok settings ∧ e ≠ e' ∧
          let o := OutlineOptions.ofDialect (a.dialect.getD settings.config.dialect)
          let files := (Glob.expand p.workspace a.patterns).2
          r.2.errors = failureText e.message ∧ r'.2.errors = failureText e'.message ∧
          (∃ path ∈ files, (fileOutline h.parse o p.workspace path).result = .error e) ∧
          ∃ path ∈ files, (fileOutline h.parse o p.workspace path).result = .error e') := by
  intro r r'
  have first : r = ((runArguments h a p).1, (runArguments h a p).2.shown) :=
    run_of_parse accepted h p
  have second : r' = ((runArguments h a p').1, (runArguments h a p').2.shown) :=
    run_of_parse accepted h p'
  clear_value r r'
  subst first second
  simp only [run_of_parse accepted]
  cases loaded : (loading h a p.workspace).result with
  | error e =>
    have loaded' : (loading h a p'.workspace).result = .error e := by rw [files, loaded]
    have loaded'' (σ : Schedule) : (loading { h with schedule := σ } a p'.workspace).result =
      .error e := loaded'
    rw [runArguments_of_unloaded loaded, runArguments_of_unloaded loaded']
    have silent : (loading h a p.workspace).notices = [] :=
      congrArg Logged.notices (Settings.load_of_error loaded)
    refine ⟨⟨rfl, rfl, files, nofun, ⟨"", ?_, ?_⟩, fun _ _ => ?_⟩, fun σ => ?_⟩
    · rw [silent, Ended.output_shown]
      rfl
    · rw [silent, Ended.output_shown]
      rfl
    · simp only [Ended.output_shown]
    · rw [runArguments_of_unloaded (loaded'' σ)]
      exact ⟨rfl, files, nofun, Or.inl rfl⟩
  | ok settings =>
    have loaded' : (loading h a p'.workspace).result = .ok settings := by rw [files, loaded]
    have loaded'' (σ : Schedule) : (loading { h with schedule := σ } a p'.workspace).result =
      .ok settings := loaded'
    obtain ⟨keptSettings, keptLevel⟩ := proceed_keeps h a (withSettings a p settings)
    rw [runArguments_of_loaded loaded, runArguments_of_loaded loaded', withSettings_congr files]
    simp only [Ended.ending_shown_behind, Ended.errors_shown_behind, Ended.output_shown]
    refine ⟨⟨trivial, trivial, trivial, ?_, ⟨_, rfl, by rw [files]; rfl⟩, ?_⟩, fun σ => ?_⟩
    · intro settings' same
      obtain rfl := Except.ok.inj same
      exact ⟨keptSettings, keptLevel, trivial⟩
    · intro quiet quiet'
      rw [shown_loading quiet, shown_loading quiet']
    · rw [runArguments_of_loaded (loaded'' σ), withSettings_congr files]
      simp only [Shown.code?, Ended.ending_shown_behind, Ended.errors_shown_behind]
      obtain ⟨program, same | ⟨e, e', failed, ends, failed', ends'⟩⟩ :=
        proceed_of_schedule h σ a (withSettings a p settings)
      · obtain ⟨ending, errors⟩ := Ended.shown_congr same
        exact ⟨congrArg Except.toOption ending, congrArg Program.workspace program,
          fun _ => program, Or.inl errors⟩
      · obtain ⟨one, handled⟩ := exists_fault_of_collect failed
        obtain ⟨one', handled'⟩ := exists_fault_of_collect failed'
        rw [Ended.shown_of_isHandled ends handled, Ended.shown_of_isHandled ends' handled']
        refine ⟨rfl, congrArg Program.workspace program, fun _ => program, ?_⟩
        by_cases same : e = e'
        · exact Or.inl (by rw [same])
        · exact Or.inr ⟨settings, e, e', rfl, same, rfl, rfl, one, one'⟩

/-- A file is written as nodes, at first and behind work that has left other settings and another
print level. -/
theorem run_forgets_history_of_nodes :
    let w : Workspace := ⟨[(["a.js"], .file (Text.Utf8.encode "/*\n@\n@node A*/"))]⟩
    let texts := ["a.js", "--dialect", "node", "--output", "out/a.json"]
    let h := Host.standard
    let p' : Program := ⟨w, ⟨⟨.form, [], "\t", 3⟩, "old.json"⟩, 0⟩
    parse texts = .ok (.run ⟨["a.js"], .json, some .node, "", "out/a.json", false⟩) ∧
      (loading h ⟨["a.js"], .json, some .node, "", "out/a.json", false⟩ w).result =
        .ok .standard ∧
      (run h texts p').1 = (run h texts (.start w)).1 ∧
      (run h texts p').1.settings = ⟨⟨.node, ["desc", "description"], "  ", 1⟩, ""⟩ ∧
      (run h texts p').2.output = (run h texts (.start w)).2.output := by
  intro w texts h p'
  have accepted :
      parse texts = .ok (.run ⟨["a.js"], .json, some .node, "", "out/a.json", false⟩) := by
    decide +kernel
  have loaded : (loading h ⟨["a.js"], .json, some .node, "", "out/a.json", false⟩ w).result =
      .ok .standard := by rfl
  obtain ⟨⟨-, -, -, left, -, output⟩, -⟩ := run_forgets_history h accepted (.start w) p' rfl
  obtain ⟨settings, -, same⟩ := left .standard loaded
  have quiet : (Program.start w).printLevel < Level.rank .info := by decide
  have quiet' : p'.printLevel < Level.rank .info := by decide
  exact ⟨accepted, loaded, same, same ▸ settings, output quiet quiet'⟩

end CommandLine

end TagOutline
