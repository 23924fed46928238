import TagOutline.Proofs.CommandLine.Failure

/-!
# JSON behind notices

Notices and the outline share the standard output. Where nothing is configured, only warnings are
shown of the notices of a run that succeeds, and they stand before the text of the outline. So the
output is one JSON text if there is no warning, and is none if there is one.
-/

namespace TagOutline

/-- No JSON text begins with a terminal code. -/
theorem Json.exists_fault_of_escape {text : String} (h : text.toList.head? = some '\x1b') :
    ∃ fault, read text = .error fault := by
  obtain ⟨rest, whole⟩ := List.head?_eq_some_iff.mp h
  have unread : atom ('\x1b' :: rest) = failAt .expectedValue ('\x1b' :: rest) := by
    simp [atom, word?, afterWord?, number, wholePart]
  have value_eq := (value_of_atom (c := '\x1b') (by decide) (by decide) (by decide)
    (2 * text.toList.length + 1) none rest).trans unread
  refine ⟨⟨.expectedValue, ('\x1b' :: rest).length⟩, ?_⟩
  rw [whole] at value_eq
  rw [read, whole, readChars.eq_2 _ _ (by simp), skipSpace_cons rfl, value_eq]
  rfl

namespace Notice

variable {printLevel : Int} {ns : List Notice}

theorem shown_append (printLevel : Int) (ns ms : List Notice) :
    shown printLevel (ns ++ ms) = shown printLevel ns ++ shown printLevel ms := by
  simp [shown, String.join_append]

theorem shown_eq_empty (silent : ∀ n ∈ ns, n.isShown printLevel = false) :
    shown printLevel ns = "" := by
  have none : ns.filter (isShown printLevel) = [] := by
    rw [List.filter_eq_nil_iff]
    intro n hn
    simp [silent n hn]
  rw [shown, none]
  rfl

/-- What is shown of any notice begins with a terminal code. -/
theorem head?_display (n : Notice) : n.display.toList.head? = some '\x1b' := by
  have banner : (Level.banner n.level.rank).toList.head? = some '\x1b' := by
    cases n.level <;> rfl
  rw [display]
  simp [toString, banner]

theorem head?_shown {n : Notice} (hn : n ∈ ns) (told : n.isShown printLevel = true) :
    (shown printLevel ns).toList.head? = some '\x1b' := by
  have member : n ∈ ns.filter (isShown printLevel) := List.mem_filter.mpr ⟨hn, told⟩
  obtain ⟨m, ms, cons⟩ := List.exists_cons_of_ne_nil (List.ne_nil_of_mem member)
  rw [shown, cons, List.map_cons, String.join_cons, String.toList_append, List.head?_append,
    head?_display]
  rfl

theorem isShown_warning_iff {n : Notice} : n.isShown (Level.rank .warning) = true ↔
    n.level = .error ∨ n.level = .warning := by
  rw [isShown]
  cases n.level <;> decide

end Notice

/-- Where a module has an outline, no notice about it is an error. -/
theorem level_ne_error_of_moduleOutline {parse : ByteArray → Script.SyntaxNode}
    {o : OutlineOptions} {σ : Schedule} {w : Workspace} {patterns : List String} {cs : List Entity}
    (outlined : (moduleOutline parse o σ w patterns).result = .ok cs) :
    ∀ n ∈ (moduleOutline parse o σ w patterns).notices, n.level ≠ .error := by
  obtain ⟨k, reads⟩ := exists_isReadBy_moduleOutline parse o σ w patterns
  have faultless := (moduleOutline_result_ok_iff.mp outlined).1
  intro n hn wrong
  have entry : n ∈ (moduleOutline parse o σ w patterns).notices.filter
      (fun n => n.level = .info ∨ n.level = .error) := List.mem_filter.mpr ⟨hn, by simp [wrong]⟩
  rw [reads.entries.mem_iff] at entry
  obtain ⟨path, member, hentry⟩ := List.mem_filterMap.mp entry
  -- Only the entry of a file with a fault is of this level.
  rw [entryAt?, faultless path (List.mem_of_mem_take member)] at hentry
  cases hentry
  cases wrong

namespace CommandLine

section

variable {h : Host} {a : Arguments} {p q : Program} {w : Workspace} {cs : List Entity}

/-- What a run shows that writes JSON to the standard output. -/
theorem runArguments_of_screen (json : a.format = .json) (screen : a.outputPath = "")
    (configured : (configure h a p).result = .ok q) (collected : (collect h a q).result = .ok cs) :
    runArguments h a p = (q, ⟨Notice.shown p.printLevel (configure h a p).notices ++
      Notice.shown q.printLevel (collect h a q).notices ++
      Archive.savedText q.settings.config.dialect cs ++ "\n", .ok ()⟩) := by
  rw [runArguments_of_collected configured collected]
  simp [write, json, writeJson, screen]

theorem configure_of_unconfigured (unasked : a.configPath = "")
    (unconfigured : p.workspace.hasPath Settings.standardPath = false) :
    configure h a p = ⟨[.configMissing], .ok (withSettings a p .standard)⟩ := by
  have loaded : loading h a p.workspace = ⟨[.configMissing], .ok .standard⟩ := by
    rw [loading, if_pos (by simp [unasked]), Settings.load_none_of_not_hasPath unconfigured]
  rw [configure_eq, loaded]
  rfl

/-- Without a configuration, only the warnings stand before the JSON. -/
theorem exists_output_of_unconfigured (json : a.format = .json) (screen : a.outputPath = "")
    (quiet : a.verbose = false) (unasked : a.configPath = "")
    (unconfigured : w.hasPath Settings.standardPath = false)
    (ok : (runArguments h a (.start w)).2.result = .ok ()) :
    ∃ cs, (moduleOutline h.parse (.ofDialect (a.dialect.getD .form)) h.schedule w
        a.patterns).result = .ok cs ∧
      (runArguments h a (.start w)).2.output =
        Notice.shown (Level.rank .warning)
          (moduleOutline h.parse (.ofDialect (a.dialect.getD .form)) h.schedule w
            a.patterns).notices ++
        (Archive.savedText (a.dialect.getD .form) cs ++ "\n") := by
  have ready : configure h a (.start w) =
      ⟨[.configMissing], .ok (withSettings a (.start w) .standard)⟩ :=
    configure_of_unconfigured unasked unconfigured
  have before : (Program.start w).printLevel = Level.rank .warning := rfl
  have behind : (withSettings a (.start w) .standard).printLevel = Level.rank .warning := by
    simp [withSettings, quiet, Settings.standard, Config.standard]
  obtain ⟨q, cs, configured, collected⟩ := exists_collected ok
  rw [ready] at configured
  obtain rfl := Except.ok.inj configured
  obtain ⟨found, notices⟩ := moduleOutline_of_collected collected
  have shows := runArguments_of_screen json screen (congrArg Logged.result ready) collected
  have missing : Notice.shown (Level.rank .warning) [.configMissing] = "" :=
    Notice.shown_eq_empty (by simp [Notice.isShown, Notice.level, Level.rank])
  have total : Notice.shown (Level.rank .warning) [.totalParsed cs.length] = "" :=
    Notice.shown_eq_empty (by simp [Notice.isShown, Notice.level, Level.rank])
  rw [ready, before, behind, missing, notices, Notice.shown_append, total, String.empty_append,
    String.append_empty, String.append_assoc] at shows
  refine ⟨cs, found, ?_⟩
  rw [shows]
  rfl

end

variable {patterns : List String} {dialect : Option Dialect} {w : Workspace}

/-- A run that writes JSON to the standard output, with nothing configured and without further
notices, and that ends with 0. What stands behind its warnings is a JSON text, and what is read from
it is the outline of the files that the patterns match. The whole output is this text if nothing was
warned about. If anything was, the whole output is no JSON text. -/
theorem output_behind_warnings {texts : List String} (h : Host)
    (accepted : parse texts = .ok (.run ⟨patterns, .json, dialect, "", "", false⟩))
    (unconfigured : w.hasPath Settings.standardPath = false)
    (ok : (run h texts (.start w)).2.code? = some 0) :
    let d := dialect.getD .form
    let found := moduleOutline h.parse (.ofDialect d) h.schedule w patterns
    let output := (run h texts (.start w)).2.output
    ∃ cs, found.result = .ok cs ∧
      output = Notice.shown (Level.rank .warning) found.notices ++
        (Archive.savedText d cs ++ "\n") ∧
      Json.read (Archive.savedText d cs ++ "\n") = .ok (Archive.document d cs) ∧
      Archive.ofDocument (Archive.document d cs) = .ok cs ∧
      ((∀ n ∈ found.notices, n.level ≠ .warning) →
        Json.read output = .ok (Archive.document d cs)) ∧
      ((∃ n ∈ found.notices, n.level = .warning) → ∃ fault, Json.read output = .error fault) := by
  intro d found output
  rw [run_of_parse accepted, Ended.code?_shown_eq_zero_iff] at ok
  obtain ⟨cs, outlined, shows⟩ := exists_output_of_unconfigured rfl rfl rfl rfl unconfigured ok
  have shows : output = Notice.shown (Level.rank .warning) found.notices ++
      (Archive.savedText d cs ++ "\n") := by
    rw [← shows]
    exact (congrArg (fun r => r.2.output) (run_of_parse accepted h _)).trans (Ended.output_shown _)
  have json := Archive.isJson_document d fun e he =>
    (Archive.isStorable_of_moduleOutline outlined e he).1
  have reads : Json.read (Archive.savedText d cs ++ "\n") = .ok (Archive.document d cs) :=
    Json.read_write_append json (some 2) (by simp [Json.isSpace])
  refine ⟨cs, outlined, shows, reads, Archive.ofDocument_of_moduleOutline outlined, ?_, ?_⟩
  · intro unwarned
    have nothing : Notice.shown (Level.rank .warning) found.notices = "" := by
      apply Notice.shown_eq_empty
      intro n hn
      rw [Bool.eq_false_iff, Ne, Notice.isShown_warning_iff, not_or]
      exact ⟨level_ne_error_of_moduleOutline outlined n hn, unwarned n hn⟩
    rw [shows, nothing, String.empty_append, reads]
  · rintro ⟨n, hn, warning⟩
    apply Json.exists_fault_of_escape
    rw [shows, String.toList_append, List.head?_append,
      Notice.head?_shown hn (Notice.isShown_warning_iff.mpr (Or.inr warning))]
    rfl

/-- Nothing is warned about. -/
theorem output_behind_warnings_of_none :
    let w : Workspace := ⟨[(["a.js"], .file (Text.Utf8.encode "/*@node A\n@property b*/"))]⟩
    let texts := ["a.js", "--dialect", "node"]
    let h := Host.standard
    parse texts = .ok (.run ⟨["a.js"], .json, some .node, "", "", false⟩) ∧
      w.hasPath Settings.standardPath = false ∧ (run h texts (.start w)).2.code? = some 0 ∧
      ∃ cs, (moduleOutline h.parse (.ofDialect .node) h.schedule w ["a.js"]).result = .ok cs ∧
        Json.read (run h texts (.start w)).2.output = .ok (Archive.document .node cs) ∧
        Archive.ofDocument (Archive.document .node cs) = .ok cs := by
  intro w texts h
  have accepted : parse texts = .ok (.run ⟨["a.js"], .json, some .node, "", "", false⟩) := by
    decide +kernel
  have unconfigured : w.hasPath Settings.standardPath = false := by rfl
  have ok : (run h texts (.start w)).2.code? = some 0 := by decide +kernel
  have unwarned : ∀ n ∈ (moduleOutline h.parse (.ofDialect .node) h.schedule w ["a.js"]).notices,
      n.level ≠ .warning := by decide +kernel
  obtain ⟨cs, outlined, -, -, rebuilt, whole, -⟩ :=
    output_behind_warnings h accepted unconfigured ok
  exact ⟨accepted, unconfigured, ok, cs, outlined, whole unwarned, rebuilt⟩

/-- A sigil without a key is warned about, and the output is no JSON text. -/
theorem output_behind_bare_sigil :
    let w : Workspace := ⟨[(["a.js"], .file (Text.Utf8.encode "/*\n@ x\n@form A\n*/"))]⟩
    let h := Host.standard
    parse ["a.js"] = .ok (.run ⟨["a.js"], .json, none, "", "", false⟩) ∧
      w.hasPath Settings.standardPath = false ∧
      (run h ["a.js"] (.start w)).2.code? = some 0 ∧
      ∃ fault, Json.read (run h ["a.js"] (.start w)).2.output = .error fault := by
  intro w h
  have escape : (run h ["a.js"] (.start w)).2.output.toList.head? = some '\x1b' := by
    decide +kernel
  exact ⟨by decide +kernel, by rfl, by decide +kernel, Json.exists_fault_of_escape escape⟩

end CommandLine

end TagOutline
