import TagOutline.CommandLine.Standard
import TagOutline.Console.Reading
import TagOutline.Proofs.Config.Settings
import TagOutline.Proofs.Console.Pool
import TagOutline.Proofs.Outline.Module

/-!
# Print levels

Whatever is read, expanded or loaded at a console tells what it tells whatever the print level is:
so the print level has no influence on what is found, nor on which error it is, nor on the settings,
and a lower print level shows a part of what a higher one shows. This is so by whatever schedule the
files of a module are read.
-/

namespace TagOutline

/-- What a step or a run tells, and its error if there is one. -/
def ParserStep.told (s : ParserStep) : Logged OutlineError Unit :=
  ⟨s.notices, match s.error with
    | some e => .error e
    | none => .ok ()⟩

/-- The settings after loading others. What cannot be loaded changes nothing. -/
def Settings.afterLoad (l : Loader) (s : Settings) (w : Workspace) (path : Option String) :
    Settings :=
  (load l w path).result.toOption.getD s

namespace Console

variable {σ ε α : Type}

/-! What is told. -/

theorem tells_openContainer (p : Parser) (t : Tag) :
    Tells (openContainer t) p (p.openContainer t).told (p.openContainer t).parser :=
  (tells_change _ p).bind_ok ((tells_say _ _).bind_ok (tells_change _ _))

theorem tells_openChild (p : Parser) (t : Tag) :
    Tells (openChild t) p (p.openChild t).told (p.openChild t).parser := by
  refine (tells_data p).bind_ok ?_
  unfold Parser.openChild
  cases p.focus with
  | none => exact tells_throw _ p
  | container c =>
    dsimp only
    split
    · exact tells_change _ p
    · exact tells_throw _ p
  | child c d =>
    dsimp only
    split
    · exact tells_change _ p
    · exact tells_throw _ p

theorem tells_writeAttribute (p : Parser) (t : Tag) :
    Tells (writeAttribute t) p (p.writeAttribute t).told (p.writeAttribute t).parser := by
  refine (tells_data p).bind_ok ?_
  unfold Parser.writeAttribute
  cases p.focus with
  | none => exact tells_say _ p
  | container c => exact tells_change _ p
  | child c d => exact tells_change _ p

/-- A tag leads to what the step of the parser says, whatever is shown of it. -/
theorem tells_takeTag (p : Parser) (t : Tag) :
    Tells (takeTag t) p (p.step t).told (p.step t).parser := by
  refine (tells_change _ p).bind_ok ((tells_data _).bind_ok ?_)
  unfold Parser.step
  dsimp only
  cases p.options.role t.key with
  | opensContainer => exact tells_openContainer _ t
  | opensChild => exact tells_openChild _ t
  | bare => exact tells_say _ _
  | «attribute» => exact tells_writeAttribute _ t

theorem tells_takeTags (p : Parser) (ts : List Tag) :
    Tells (takeTags ts) p (p.takeAll ts).told (p.takeAll ts).parser := by
  induction ts generalizing p with
  | nil => exact tells_change _ p
  | cons t ts ih =>
    have first := tells_takeTag p t
    unfold takeTags Parser.takeAll
    dsimp only
    cases failed : (p.step t).error with
    | some e =>
      simp only [ParserStep.told, failed] at first
      exact first.bind_error
    | none =>
      simp only [ParserStep.told, failed] at first
      exact first.bind_ok (ih _)

theorem tells_takeAll (p : Parser) : Tells takeAll p p.run.entities p.run.parser := by
  have taken := tells_takeTags p p.source.ahead
  refine (tells_data p).bind_ok ?_
  dsimp only [Parser.run, ParserStep.entities]
  cases failed : (p.takeAll p.source.ahead).error with
  | some e =>
    simp only [ParserStep.told, failed] at taken
    exact taken.bind_error
  | none =>
    simp only [ParserStep.told, failed] at taken
    exact taken.bind_silent ((tells_data _).bind_ok (tells_pure _ _))

theorem tells_parse (o : OutlineOptions) (text : String) (s : σ) :
    Tells (parse o text) s (outline o text) s :=
  (tells_takeAll (Parser.ofText o text)).within s

theorem tells_parseTexts (o : OutlineOptions) (texts : List String) (s : σ) :
    Tells (parseTexts o texts) s (findInTexts (outline o) texts) s := by
  induction texts with
  | nil => exact tells_pure [] s
  | cons text texts ih =>
    have first := tells_parse o text s
    unfold parseTexts
    cases failed : (outline o text).error? with
    | some e =>
      rw [findInTexts_cons_of_error _ failed]
      exact (first.of_result (Logged.result_of_error? failed)).bind_error
    | none =>
      rw [findInTexts_cons_of_found _ failed]
      exact (first.of_result (Logged.result_of_no_error failed)).bind_ok (ih.bind_pure _)

theorem tells_report (path : String) (e : OutlineError) (s : σ) :
    Tells (report path e) s
      ⟨fileNotices path (.error e : Except OutlineError (List Entity)), .ok ()⟩ s := by
  cases e with
  | orphanChild line content => exact tells_say _ s
  | childless missing => exact tells_pure () s

section Files

variable (tree : ByteArray → Script.SyntaxNode) (o : OutlineOptions)

theorem tells_parseScript (text : String) (s : σ) :
    Tells (parseScript tree o text) s (scriptOutline tree o text) s :=
  tells_parseTexts o (Script.blockComments tree text) s

theorem tells_parseFile (w : Workspace) (path : String) (s : σ) :
    Tells (parseFile tree o w path) s (fileOutline tree o w path) s := by
  unfold parseFile fileOutline findInFile
  cases w.readText path with
  | error e => exact (tells_check _ s).bind_error
  | ok text =>
    have script := tells_parseScript tree o text s
    refine (tells_check _ s).bind_ok ?_
    cases found : (scriptOutline tree o text).result with
    | ok containers =>
      have read := (script.of_result found).catch_ok (g := fun e => do report path e; throw e)
      exact (read.adapt ModuleError.outline).bind_ok ((tells_say _ s).bind_ok (tells_pure _ s))
    | error e =>
      have read := (script.of_result found).catch_error (g := fun e => do report path e; throw e)
        ((tells_report path e s).bind_silent (tells_throw e s))
      exact (read.adapt ModuleError.outline).bind_error

/-- The files of a module are jobs, each of which tells what the file tells. -/
theorem tells_parseFiles (w : Workspace) (paths : List String) :
    List.Forall₂ (fun x told => x.Tells (· = told.result) told.notices)
      (paths.map fun path => job () (parseFile tree o w path))
      (paths.map (fileOutline tree o w)) := by
  rw [List.forall₂_map_left_iff, List.forall₂_map_right_iff, List.forall₂_same]
  exact fun path _ => (tells_parseFile tree o w path ()).job

end Files

theorem tells_expandFrom (w : Workspace) (seen patterns : List String) (s : σ) :
    Tells (expandFrom w seen patterns : Work σ ε _) s
      ⟨(Glob.expandFrom w seen patterns).1, .ok (Glob.expandFrom w seen patterns).2⟩ s := by
  induction patterns generalizing seen with
  | nil => exact tells_pure seen s
  | cons pattern patterns ih =>
    unfold expandFrom Glob.expandFrom
    split
    · exact (tells_say _ s).bind_ok (ih seen)
    · exact ih _

theorem tells_expand (w : Workspace) (patterns : List String) (s : σ) :
    Tells (expand w patterns : Work σ ε _) s
      ⟨(Glob.expand w patterns).1, .ok (Glob.expand w patterns).2⟩ s :=
  tells_expandFrom w [] patterns s

theorem tells_parseModule (tree : ByteArray → Script.SyntaxNode) (o : OutlineOptions)
    (schedule : Schedule) (w : Workspace) (patterns : List String) (s : σ) :
    Tells (parseModule tree o schedule w patterns) s (moduleOutline tree o schedule w patterns) s := by
  obtain ⟨result, ends, told⟩ := Pool.follows_run (δ := ModuleError)
    (tells_parseFiles tree o w (Glob.expand w patterns).2) schedule
  rw [moduleOutline, findInModule_of_run rfl ends]
  exact (tells_expand w patterns s).bind_ok ((tells_lift told s).bind_silent (tells_check _ s))

theorem tells_loadFile (l : Loader) (w : Workspace) (path : String) (s : Settings) :
    Tells (loadFile l w path) s (Settings.loadFile l w path)
      ((Settings.loadFile l w path).result.toOption.getD s) := by
  unfold loadFile Settings.loadFile
  cases Settings.readConfig l w path with
  | error e => exact (tells_check _ s).bind_error
  | ok config =>
    exact (tells_check _ s).bind_ok ((tells_change _ s).bind_ok
      ((tells_say _ _).bind_ok (tells_data _)))

theorem tells_loadSettings (l : Loader) (w : Workspace) (path : Option String) (s : Settings) :
    Tells (loadSettings l w path) s (Settings.load l w path) (s.afterLoad l w path) := by
  unfold loadSettings Settings.afterLoad
  cases path with
  | some path => exact tells_loadFile l w path s
  | none =>
    cases there : w.hasPath Settings.standardPath with
    | true =>
      rw [Settings.load_none_of_hasPath there]
      exact tells_loadFile l w Settings.standardPath s
    | false =>
      rw [Settings.load_none_of_not_hasPath there]
      exact (tells_say _ s).bind_ok ((tells_change _ s).bind_ok (tells_data _))

/-- Whatever is read, expanded or loaded, and whatever it is done on: the print level has no
influence on what is found, nor on which error there is, nor on the settings, and what a lower print
level shows is, in the same order and with the same texts, the part of what a higher one shows that
the lower one lets through. This also holds where the work ends with an error. A parser may have
read any part of its text before; the files of a module are read by any schedule, and what is found
in them is the same by another. -/
theorem levels_are_nested (tree : ByteArray → Script.SyntaxNode) (l : Loader) (s : Settings) :
    (∀ p : Parser, IsLevelFree takeAll p p.run.entities p.run.parser) ∧
    (∀ o text, IsLevelFree (parse o text) s (outline o text) s) ∧
    (∀ o text, IsLevelFree (parseScript tree o text) s (scriptOutline tree o text) s) ∧
    (∀ o w path, IsLevelFree (parseFile tree o w path) s (fileOutline tree o w path) s) ∧
    (∀ o schedule w patterns, IsLevelFree (parseModule tree o schedule w patterns) s
      (moduleOutline tree o schedule w patterns) s) ∧
    (∀ w patterns, IsLevelFree (expand w patterns : Work Settings Empty (List String)) s
      ⟨(Glob.expand w patterns).1, .ok (Glob.expand w patterns).2⟩ s) ∧
    (∀ w path, IsLevelFree (loadSettings l w path) s (Settings.load l w path)
      (s.afterLoad l w path)) ∧
    ∀ o w patterns (p q : Int) (schedule schedule' : Schedule) cs,
      (run (parseModule tree o schedule w patterns) ⟨p, []⟩ s).result = .ok cs ↔
        (run (parseModule tree o schedule' w patterns) ⟨q, []⟩ s).result = .ok cs := by
  refine ⟨fun p => (tells_takeAll p).isLevelFree,
    fun o text => (tells_parse o text s).isLevelFree,
    fun o text => (tells_parseScript tree o text s).isLevelFree,
    fun o w path => (tells_parseFile tree o w path s).isLevelFree,
    fun o schedule w patterns => (tells_parseModule tree o schedule w patterns s).isLevelFree,
    fun w patterns => (tells_expand w patterns s).isLevelFree,
    fun w path => (tells_loadSettings l w path s).isLevelFree, ?_⟩
  intro o w patterns p q schedule schedule' cs
  rw [(tells_parseModule tree o schedule w patterns s).run,
    (tells_parseModule tree o schedule' w patterns s).run, moduleOutline_result_ok_iff,
    moduleOutline_result_ok_iff]

/-- A form behind a sigil without a key, and in another file a child that has no container, read at
the same time: with errors and warnings shown, what is told about the form that is opened and about
the file that is read is missing, and the error is the same. -/
theorem levels_are_nested_of_failing_file :
    let w : Workspace := ⟨[(["a.js"], .file (Text.Utf8.encode "/*@\n@form A*/")),
      (["b.js"], .file (Text.Utf8.encode "/*@input b*/"))]⟩
    let inPairs : Schedule := ⟨2, [.take, .take, .go 0, .go 1, .go 0, .go 1]⟩
    let reading : Work Settings ModuleError (List Entity) :=
      parseModule Script.scannedTree (.ofDialect .form) inPairs w ["a.js", "c.js", "b.js"]
    let low := run reading ⟨1, []⟩ .standard
    let high := run reading ⟨3, []⟩ .standard
    (1 : Int) ≤ 3 ∧ low.result = high.result ∧ low.result.isOk = false ∧
      high.console.shown = [.patternUnmatched "c.js", .bareSigil 1,
        .fileFailed "b.js" (OutlineError.orphanChild 1 "@input b").message,
        .containerOpened 2 "A", .fileParsed "a.js" 1] ∧
      low.console.shown = [.patternUnmatched "c.js", .bareSigil 1,
        .fileFailed "b.js" (OutlineError.orphanChild 1 "@input b").message] := by
  intro w inPairs reading low high
  obtain ⟨-, -, -, -, free, -⟩ :=
    levels_are_nested Script.scannedTree CommandLine.Host.standard.loader .standard
  replace free := free (.ofDialect .form) inPairs w ["a.js", "c.js", "b.js"]
  have all : high.console.shown = [.patternUnmatched "c.js", .bareSigil 1,
      .fileFailed "b.js" (OutlineError.orphanChild 1 "@input b").message,
      .containerOpened 2 "A", .fileParsed "a.js" 1] := by
    have shows := congrArg (fun outcome => outcome.console.shown) (free.outcome 3)
    exact shows.trans (by decide +kernel)
  have part : low.console.shown = high.console.shown.filter fun n => n.level.rank ≤ 1 :=
    free.nested 1 3 (by decide)
  refine ⟨by decide, (free.same 1 3).1, ?_, all, ?_⟩
  · have fails := congrArg (fun outcome => outcome.result.isOk) (free.outcome 1)
    exact fails.trans (by decide +kernel)
  · rw [part, all]
    rfl

end Console

end TagOutline
