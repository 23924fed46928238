import TagOutline.CommandLine.Run
import TagOutline.CommandLine.Standard
import TagOutline.Proofs.Archive.Outlined
import TagOutline.Proofs.Entity.Html

/-!
# Where a run writes

A run that succeeds has loaded its settings and the outline of its files, and has written one text,
to a file or to the standard output. The text does not depend on where it goes, nor on the schedule
by which the files are read, and nothing else is written.
-/

namespace TagOutline

namespace CommandLine

open Workspace (AddsDirectories LeadsToFile)

/-- The text that an outline is written as. -/
def written (format : OutputFormat) (c : Config) (cs : List Entity) : Except MissingMember String :=
  match format with
  | .json => .ok (Archive.savedText c.dialect cs)
  | .html => (htmlText c.renderStyle cs).map (· ++ "\n")

/-- What stands on the standard output behind the text. -/
def ending : OutputFormat → String
  | .json => "\n"
  | .html => ""

@[simp] theorem Ended.output_shown (e : Ended) : e.shown.output = e.output := by
  unfold shown
  split
  · rfl
  · split <;> rfl

/-- Code 0 is that of work without an error. -/
@[simp] theorem Ended.code?_shown_eq_zero_iff {e : Ended} :
    e.shown.code? = some 0 ↔ e.result = .ok () := by
  unfold shown Shown.code?
  split
  next done => simp [done, Except.toOption]
  next error failed => split <;> simp [failed, Except.toOption]

variable {h : Host} {a : Arguments} {p q : Program} {shown : String} {cs : List Entity}

theorem runArguments_of_collected (configured : (configure h a p).result = .ok q)
    (collected : (collect h a q).result = .ok cs) :
    runArguments h a p = write a q (Notice.shown p.printLevel (configure h a p).notices ++
      Notice.shown q.printLevel (collect h a q).notices) cs := by
  simp only [runArguments, configured, collected]

/-- A run that succeeds has come as far as to write. -/
theorem exists_collected (ok : (runArguments h a p).2.result = .ok ()) :
    ∃ q cs, (configure h a p).result = .ok q ∧ (collect h a q).result = .ok cs := by
  unfold runArguments at ok
  dsimp only at ok
  split at ok
  · cases ok
  next q configured =>
    split at ok
    · cases ok
    next cs collected => exact ⟨q, cs, configured, collected⟩

/-- Only the settings and the print level are configured. -/
theorem exists_settings (configured : (configure h a p).result = .ok q) :
    ∃ settings, (Settings.load h.loader p.workspace
        (if a.configPath.isEmpty then none else some a.configPath)).result = .ok settings ∧
      q.workspace = p.workspace ∧ q.settings.config =
        { settings.config with dialect := a.dialect.getD settings.config.dialect } := by
  unfold configure at configured
  dsimp only at configured
  cases loaded : (Settings.load h.loader p.workspace
      (if a.configPath.isEmpty then none else some a.configPath)).result with
  | error e =>
    rw [loaded] at configured
    cases configured
  | ok settings =>
    rw [loaded] at configured
    obtain rfl := Except.ok.inj configured
    exact ⟨settings, rfl, rfl, rfl⟩

/-- The outline of the files, and what is told about it. -/
theorem moduleOutline_of_collected (collected : (collect h a q).result = .ok cs) :
    (moduleOutline h.parse q.settings.config.outlineOptions h.schedule q.workspace
        a.patterns).result = .ok cs ∧
      (collect h a q).notices = (moduleOutline h.parse q.settings.config.outlineOptions h.schedule
        q.workspace a.patterns).notices ++ [.totalParsed cs.length] := by
  unfold collect at collected ⊢
  dsimp only at collected ⊢
  split at collected
  next containers found =>
    cases collected
    exact ⟨found, rfl⟩
  next error found =>
    rw [found] at collected
    cases collected

/-- Without an output path, the text stands on the standard output. -/
theorem write_to_screen (screen : a.outputPath = "") (ok : (write a q shown cs).2.result = .ok ()) :
    ∃ content, written a.format q.settings.config cs = .ok content ∧
      write a q shown cs = (q, ⟨shown ++ content ++ ending a.format, .ok ()⟩) := by
  unfold write at ok ⊢
  cases format : a.format with
  | json =>
    refine ⟨_, rfl, ?_⟩
    simp [writeJson, screen, ending]
  | html =>
    rw [format] at ok
    simp only [writeHtml, screen] at ok ⊢
    cases rendered : htmlText q.settings.config.renderStyle cs with
    | error e =>
      rw [rendered] at ok
      cases ok
    | ok html =>
      refine ⟨html ++ "\n", by rw [written, rendered]; rfl, ?_⟩
      simp [ending, String.append_assoc]

/-- With an output path, the text stands in the file that the path leads to, and directories may
have been made for it. -/
theorem write_to_file (named : a.outputPath ≠ "") (ok : (write a q shown cs).2.result = .ok ()) :
    ∃ content, written a.format q.settings.config cs = .ok content ∧
      ∃ ready l, q.workspace.AddsDirectories ready ∧ ready.LeadsToFile a.outputPath l ∧
        write a q shown cs =
          ({ q with workspace := ready.put l (.file (Text.Utf8.encode content)) },
            ⟨shown, .ok ()⟩) := by
  have named : ¬ a.outputPath.isEmpty = true := by simpa using named
  unfold write at ok ⊢
  cases format : a.format with
  | json =>
    rw [format] at ok
    simp only [writeJson, if_neg named] at ok ⊢
    obtain ⟨w, result, saved⟩ : ∃ w result, Archive.save q.workspace a.outputPath cs
        (.text q.settings.config.dialect.name) = (w, result) := ⟨_, _, rfl⟩
    rw [saved] at ok ⊢
    cases result with
    | error e => cases ok
    | ok done =>
      obtain ⟨ready, l, prepared, leads, rfl⟩ := Archive.save_eq_ok_iff.mp saved
      have adds := Archive.addsDirectories_prepare q.workspace a.outputPath
      rw [prepared] at adds
      exact ⟨_, rfl, ready, l, adds, leads, rfl⟩
  | html =>
    rw [format] at ok
    simp only [writeHtml, if_neg named] at ok ⊢
    cases rendered : htmlText q.settings.config.renderStyle cs with
    | error e =>
      rw [rendered] at ok
      cases ok
    | ok html =>
      rw [rendered] at ok
      dsimp only at ok
      split at ok
      next w saved =>
        obtain ⟨l, leads, rfl⟩ := Workspace.writeBytes_eq_ok_iff.mp saved
        refine ⟨html ++ "\n", by rw [written, rendered]; rfl, q.workspace, l, .refl _, leads, ?_⟩
        simp only [saved]
      next => cases ok

/-- A run is told by what was asked of it. -/
theorem run_of_parse {texts : List String} (parsed : parse texts = .ok (.run a)) (h : Host)
    (p : Program) :
    run h texts p = ((runArguments h a p).1, (runArguments h a p).2.shown) := by
  rw [run, parsed]

/-- The HTML of an outline is that of its containers, one after another. -/
theorem written_html {c : Config} {content : String} (h : written .html c cs = .ok content) :
    ∃ pages, cs.mapM (fun e => e.render none (some c.renderStyle) none) = .ok pages ∧
      content = "\n".intercalate pages ++ "\n" := by
  rw [written, htmlText, Entity.childrenHtml_eq_mapM] at h
  cases rendered : cs.mapM fun e => e.render none (some c.renderStyle) none with
  | error e =>
    rw [rendered] at h
    cases h
  | ok pages =>
    rw [rendered] at h
    exact ⟨pages, rfl, (Except.ok.inj h).symm⟩

/-- By another schedule the same outline is collected, and the same is told in some order. -/
theorem collected_of_collected (collected : (collect h a q).result = .ok cs) (σ : Schedule) :
    (collect { h with schedule := σ } a q).result = .ok cs ∧
      (collect { h with schedule := σ } a q).notices.Perm (collect h a q).notices := by
  obtain ⟨outlined, notices⟩ := moduleOutline_of_collected collected
  have outlined' : (moduleOutline h.parse q.settings.config.outlineOptions σ q.workspace
      a.patterns).result = .ok cs := by
    rw [moduleOutline_result_ok_iff] at outlined ⊢
    exact outlined
  have collected' : (collect { h with schedule := σ } a q).result = .ok cs := by
    simp only [collect, outlined']
  obtain ⟨-, notices'⟩ := moduleOutline_of_collected collected'
  refine ⟨collected', ?_⟩
  rw [notices, notices']
  exact ((perm_moduleOutline_notices outlined').trans
    (perm_moduleOutline_notices outlined).symm).append_right _

/-- Two command lines that differ only in where they write, one to a file and one to the standard
output, and both succeed. Then they write the same text, that of the outline of the files that the
patterns match, in the dialect that is asked for or else configured: the JSON is loaded as this
outline, and the HTML is that of its containers in the tags of the dialect and with the indent and
the ignored attributes that are configured. The one changes no other file, even where the file that
it writes is one of those that it has read, and the other changes nothing. Where both read the files
by the same schedule, they tell the same; else they tell the same about the files in some order. -/
theorem run_outputs_agree {texts texts' : List String} {a : Arguments} {path : String} (h : Host)
    (σ : Schedule) (p : Program) (file : parse texts = .ok (.run { a with outputPath := path }))
    (screen : parse texts' = .ok (.run { a with outputPath := "" })) (named : path ≠ "")
    (ok : (run h texts p).2.code? = some 0)
    (ok' : (run { h with schedule := σ } texts' p).2.code? = some 0) :
    ∃ settings cs content l loading level told told',
      let d := a.dialect.getD settings.config.dialect
      let style : RenderStyle := ⟨d.containerTag, d.childTag, settings.config.indent,
        settings.config.ignored.map .text⟩
      let w := (run h texts p).1.workspace
      let output := (run h texts p).2.output
      let output' := (run { h with schedule := σ } texts' p).2.output
      (Settings.load h.loader p.workspace
        (if a.configPath.isEmpty then none else some a.configPath)).result = .ok settings ∧
      (∀ τ, (moduleOutline h.parse (.ofDialect d) τ p.workspace a.patterns).result = .ok cs) ∧
      w.find path = .ok (l, .file (Text.Utf8.encode content)) ∧
      (σ = h.schedule → output' = output ++ content ++
        (match a.format with | .json => "\n" | .html => "")) ∧
      output = loading ++ Notice.shown level told ∧
      output' = loading ++ Notice.shown level told' ++ content ++
        (match a.format with | .json => "\n" | .html => "") ∧
      told'.Perm told ∧
      (a.format = .json → Archive.load w path = .ok cs) ∧
      (a.format = .html → ∃ pages,
        cs.mapM (fun e => e.render none (some style) none) = .ok pages ∧
          content = "\n".intercalate pages ++ "\n") ∧
      (∀ k, k ≠ l → w.item? k = p.workspace.item? k ∨
        p.workspace.item? k = none ∧ w.item? k = some .directory) ∧
      (∀ other k bytes, p.workspace.find other = .ok (k, .file bytes) → k ≠ l →
        w.find other = .ok (k, .file bytes)) ∧
      (run { h with schedule := σ } texts' p).1.workspace = p.workspace := by
  rw [run_of_parse file, Ended.code?_shown_eq_zero_iff] at ok
  rw [run_of_parse screen, Ended.code?_shown_eq_zero_iff] at ok'
  simp only [run_of_parse file, run_of_parse screen, Ended.output_shown]
  obtain ⟨q, cs, configured, collected⟩ := exists_collected ok
  obtain ⟨settings, loaded, here, config⟩ := exists_settings configured
  obtain ⟨outlined, -⟩ := moduleOutline_of_collected collected
  obtain ⟨collected', told⟩ := collected_of_collected collected σ
  -- The output path has no part in what is configured and collected.
  have toFile := runArguments_of_collected configured collected
  have toScreen : runArguments { h with schedule := σ } { a with outputPath := "" } p = _ :=
    runArguments_of_collected configured collected'
  rw [toFile] at ok
  rw [toScreen] at ok'
  obtain ⟨content, text, ready, l, adds, leads, wrote⟩ := write_to_file named ok
  obtain ⟨content', text', wrote'⟩ := write_to_screen rfl ok'
  obtain rfl : content = content' := Except.ok.inj (text.symm.trans text')
  rw [toFile, toScreen, wrote, wrote']
  have found := leads.find_put (Text.Utf8.encode content)
  rw [here] at adds outlined
  have dialect (τ : Schedule) : (moduleOutline h.parse
      (.ofDialect (a.dialect.getD settings.config.dialect)) τ p.workspace a.patterns).result =
        .ok cs := by
    rw [config] at outlined
    rw [moduleOutline_result_ok_iff]
    exact moduleOutline_result_ok_iff.mp outlined
  have behind : ending a.format = (match a.format with | .json => "\n" | .html => "") := by
    cases a.format <;> rfl
  refine ⟨settings, cs, content, l, _, _, _, _, loaded, dialect, found, ?_, rfl, ?_, told, ?_, ?_,
    ?_, ?_, here⟩
  · rintro rfl
    rw [← behind]
    rfl
  · rw [← behind]
    rfl
  · intro json
    have text : written a.format q.settings.config cs = .ok content := text
    rw [json] at text
    obtain rfl := Except.ok.inj text
    exact Archive.load_of_moduleOutline outlined found
  · intro html
    have text : written a.format q.settings.config cs = .ok content := text
    rw [html] at text
    have pages := written_html text
    rw [config] at pages
    exact pages
  · intro k apart
    rw [Workspace.item?_put_of_ne ready apart]
    exact adds k
  · intro other k bytes hfind apart
    exact leads.find_put_of_ne _ apart (adds.find_kept hfind)

/-- A form is read from the file that its outline is then written to, beside another file. -/
theorem run_outputs_agree_same_file :
    let h := Host.standard
    let p := Program.start ⟨[(["a.js"], .file (Text.Utf8.encode "/*@form A\n@input b*/")),
      (["b.js"], .file (Text.Utf8.encode "/*@form B*/"))]⟩
    let w := (run h ["a.js", "--output", "a.js"] p).1.workspace
    parse ["a.js", "--output", "a.js"] = .ok (.run ⟨["a.js"], .json, none, "", "a.js", false⟩) ∧
    parse ["a.js"] = .ok (.run ⟨["a.js"], .json, none, "", "", false⟩) ∧
    (run h ["a.js", "--output", "a.js"] p).2.code? = some 0 ∧
    (run h ["a.js"] p).2.code? = some 0 ∧
    w.find "b.js" = .ok (["b.js"], .file (Text.Utf8.encode "/*@form B*/")) ∧
    ∃ cs content,
      (moduleOutline h.parse (.ofDialect .form) .inTurn p.workspace ["a.js"]).result = .ok cs ∧
      w.find "a.js" = .ok (["a.js"], .file (Text.Utf8.encode content)) ∧
      (run h ["a.js"] p).2.output =
        (run h ["a.js", "--output", "a.js"] p).2.output ++ content ++ "\n" ∧
      Archive.load w "a.js" = .ok cs := by
  intro h p w
  have file : parse ["a.js", "--output", "a.js"] =
      .ok (.run ⟨["a.js"], .json, none, "", "a.js", false⟩) := by decide
  have screen : parse ["a.js"] = .ok (.run ⟨["a.js"], .json, none, "", "", false⟩) := by decide
  have ok : (run h ["a.js", "--output", "a.js"] p).2.code? = some 0 := by decide +kernel
  have ok' : (run h ["a.js"] p).2.code? = some 0 := by decide +kernel
  have place : (w.find "a.js").toOption.map Prod.fst = some ["a.js"] := by decide +kernel
  have missing : (Settings.load h.loader p.workspace none).result = .ok Settings.standard := by rfl
  obtain ⟨settings, cs, content, l, -, -, -, -, loaded, outlined, found, output, -, -, -, json, -, -,
    others, -⟩ := run_outputs_agree (a := ⟨["a.js"], .json, none, "", "", false⟩) h h.schedule p file
      screen (by decide) ok ok'
  obtain rfl : settings = .standard := Except.ok.inj (loaded.symm.trans missing)
  obtain rfl : l = ["a.js"] := by
    have found : w.find "a.js" = _ := found
    rw [found] at place
    exact Option.some.inj place
  exact ⟨file, screen, ok, ok', others "b.js" ["b.js"] _ rfl (by decide), cs, content,
    outlined .inTurn, found, output rfl, json rfl⟩

end CommandLine

end TagOutline
