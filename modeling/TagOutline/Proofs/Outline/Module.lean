import Mathlib.Data.List.Basic
import TagOutline.Outline.Module
import TagOutline.Proofs.Files.Tree
import TagOutline.Proofs.Outline.Script
import TagOutline.Proofs.Outline.Step
import TagOutline.Proofs.Pool

/-!
# The order of a module

A module is read file by file, and a file comment by comment. What a file gives is a matter of its
text alone. When the files are read one after another the first one that fails decides the result,
but all of them are read, and each ends with its entry in the log. When they are read by another
schedule what is told about them is woven together, one of those that fail decides, and files may be
given up that still wait by then. Whether there is an outline, and which, is the same for all
schedules.
-/

namespace TagOutline

variable {α : Type}

/-- Results are gathered in order. -/
theorem gather_eq {ε β : Type} {result : β → Except ε (List α)} {error? : β → Option ε}
    {found : β → List α} (h : ∀ b, result b = outcome (error? b) (found b)) (bs : List β) :
    gather (bs.map result) = firstErrorOrAll error? found bs := by
  induction bs with
  | nil => rfl
  | cons b bs ih =>
    cases hb : error? b with
    | some e =>
      rw [List.map_cons, h, hb, firstErrorOrAll_cons_of_error hb]
      rfl
    | none =>
      rw [List.map_cons, h, hb, outcome, gather, ih, firstErrorOrAll_cons_of_found hb]

section Files

variable (parse : ByteArray → Script.SyntaxNode) (read : String → Logged OutlineError (List α))
  (w : Workspace) (path : String)

/-- Why a file fails: it is no text, or the first of its block comments that fails does. -/
def faultAt? : Option ModuleError :=
  match w.readText path with
  | .error e => some (.unreadable e)
  | .ok text => ((Script.blockComments parse text).findSome? fun c => (read c).error?).map .outline

/-- What the block comments of a file give, one after another. -/
def foundAt : List α :=
  match w.readText path with
  | .error _ => []
  | .ok text => (Script.blockComments parse text).flatMap fun c => (read c).found

/-- The entry of a file in the log: how many containers it has, or that its structure is wrong. -/
def entryAt? : Option Notice :=
  match faultAt? parse read w path with
  | none => some (.fileParsed path (foundAt parse read w path).length)
  | some (.outline (.orphanChild line content)) =>
    some (.fileFailed path (OutlineError.orphanChild line content).message)
  | some _ => none

/-- All that is told about a file: about its block comments up to the first that fails, and then its
entry. -/
def noticesAt : List Notice :=
  match w.readText path with
  | .error _ => []
  | .ok text =>
    ((readTexts read (Script.blockComments parse text)).flatMap fun c => (read c).notices) ++
      (entryAt? parse read w path).toList

/-- Reads the block comments of a script. -/
abbrev readScript (text : String) : Logged OutlineError (List α) :=
  findInTexts read (Script.blockComments parse text)

/-- A file that is read by itself fails with its fault, or gives what its comments give. -/
theorem findInFile_result :
    (findInFile (readScript parse read) w path).result =
      outcome (faultAt? parse read w path) (foundAt parse read w path) := by
  cases htext : w.readText path with
  | error e => simp only [findInFile, faultAt?, htext, Logged.ofExcept, outcome]
  | ok text =>
    simp only [findInFile, faultAt?, foundAt, htext, findInTexts_result, firstErrorOrAll]
    cases (Script.blockComments parse text).findSome? fun c => (read c).error? with
    | some e => rfl
    | none => rfl

variable {parse read w path}

theorem fileNotices_of_text {text : String} (htext : w.readText path = .ok text) :
    fileNotices path (readScript parse read text).result = (entryAt? parse read w path).toList := by
  simp only [entryAt?, faultAt?, foundAt, htext, findInTexts_result, firstErrorOrAll]
  cases (Script.blockComments parse text).findSome? fun c => (read c).error? with
  | some e =>
    cases e with
    | orphanChild line content => rfl
    | childless e => rfl
  | none => rfl

theorem findInFile_notices :
    (findInFile (readScript parse read) w path).notices = noticesAt parse read w path := by
  cases htext : w.readText path with
  | error e => simp only [findInFile, noticesAt, htext, Logged.ofExcept]
  | ok text =>
    rw [noticesAt, ← fileNotices_of_text htext, htext]
    simp only [findInFile, htext, findInTexts_notices]

/-- Only the entry of a file is neither a warning nor a detail. -/
theorem filter_noticesAt
    (tells : ∀ c, ∀ n ∈ (read c).notices, n.level = .warning ∨ n.level = .debug) :
    (noticesAt parse read w path).filter (fun n => n.level = .info ∨ n.level = .error) =
      (entryAt? parse read w path).toList := by
  have entry : (entryAt? parse read w path).toList.filter
      (fun n => n.level = .info ∨ n.level = .error) = (entryAt? parse read w path).toList := by
    rw [List.filter_eq_self]
    intro n hn
    have h := Option.mem_toList.mp hn
    unfold entryAt? at h
    split at h
    · cases h
      rfl
    · cases h
      rfl
    · cases h
  cases htext : w.readText path with
  | error e =>
    have none : entryAt? parse read w path = none := by simp only [entryAt?, faultAt?, htext]
    rw [none, noticesAt, htext]
    rfl
  | ok text =>
    -- What is told about the comments are warnings and details, so only the entry is left.
    have silent : ((readTexts read (Script.blockComments parse text)).flatMap fun c =>
        (read c).notices).filter (fun n => n.level = .info ∨ n.level = .error) = [] := by
      rw [List.filter_eq_nil_iff]
      intro n hn
      obtain ⟨c, -, hn⟩ := List.mem_flatMap.mp hn
      rcases tells c n hn with hlevel | hlevel <;> simp [hlevel]
    rw [noticesAt, htext]
    dsimp only
    rw [List.filter_append, silent, entry, List.nil_append]

/-- As long as the file and all directories stay, other files may change, come and go. -/
theorem readText_of_kept {w' : Workspace} {k : Location} {bytes : ByteArray}
    (h : w.find path = .ok (k, .file bytes))
    (directories : ∀ m, w.item? m = some .directory → w'.item? m = some .directory)
    (file : w'.item? k = some (.file bytes)) : w'.readText path = w.readText path := by
  have h' := Workspace.find_of_kept directories (fun _ => file) h
  rw [Workspace.readText, Workspace.readText, Workspace.readBytes, Workspace.readBytes, h, h']

end Files

/-- The files that patterns match are read in their order: the first fault counts, or else all that
was found does, and each file is told about once. -/
structure IsReadInOrder (parse : ByteArray → Script.SyntaxNode)
    (read : String → Logged OutlineError (List α)) (w : Workspace) (patterns : List String)
    (reading : Logged ModuleError (List α)) : Prop where
  once : (Glob.expand w patterns).2.Nodup
  result : reading.result =
    firstErrorOrAll (faultAt? parse read w) (foundAt parse read w) (Glob.expand w patterns).2
  notices : reading.notices =
    (Glob.expand w patterns).1 ++ (Glob.expand w patterns).2.flatMap (noticesAt parse read w)
  entries : reading.notices.filter (fun n => n.level = .info ∨ n.level = .error) =
    (Glob.expand w patterns).2.filterMap (entryAt? parse read w)

/-- Of the files that patterns match the first `n` are read by a schedule, and those behind them are
given up because of a fault. What is told about the files is woven together, and the fault is that
of one of them. All that was found does not depend on the schedule. A single worker reads the files
in their order. -/
structure IsReadBy (σ : Schedule) (n : Nat) (parse : ByteArray → Script.SyntaxNode)
    (read : String → Logged OutlineError (List α)) (w : Workspace) (patterns : List String)
    (reading : Logged ModuleError (List α)) : Prop where
  all : (Glob.expand w patterns).2.length ≤ n ∨ .close ∈ σ.turns ∧ ∃ e, reading.result = .error e
  notices : ∃ told, reading.notices = (Glob.expand w patterns).1 ++ told ∧
    Interleaves (((Glob.expand w patterns).2.take n).map (noticesAt parse read w)) told
  entries : (reading.notices.filter (fun n => n.level = .info ∨ n.level = .error)).Perm
    (((Glob.expand w patterns).2.take n).filterMap (entryAt? parse read w))
  failed : ∀ e, reading.result = .error e →
    ∃ path ∈ (Glob.expand w patterns).2.take n, faultAt? parse read w path = some e
  found : ∀ xs, reading.result = .ok xs ↔
    firstErrorOrAll (faultAt? parse read w) (foundAt parse read w) (Glob.expand w patterns).2 =
      .ok xs
  inOrder : σ.workers ≤ 1 →
    reading.notices = (Glob.expand w patterns).1 ++
      ((Glob.expand w patterns).2.take n).flatMap (noticesAt parse read w) ∧
    reading.result =
      firstErrorOrAll (faultAt? parse read w) (foundAt parse read w) (Glob.expand w patterns).2

section Schedules

variable {parse : ByteArray → Script.SyntaxNode} {read : String → Logged OutlineError (List α)}
  {w : Workspace} {patterns : List String} {reading : Logged ModuleError (List α)} {σ : Schedule}
  {n : Nat}

/-- About a pattern there are only warnings, so the entries are those of the files. -/
theorem filter_expand :
    (Glob.expand w patterns).1.filter (fun n => n.level = .info ∨ n.level = .error) = [] := by
  rw [List.filter_eq_nil_iff]
  intro n hn
  simp [Glob.level_of_mem_expandFrom hn]

theorem filter_flatMap_noticesAt
    (tells : ∀ c, ∀ n ∈ (read c).notices, n.level = .warning ∨ n.level = .debug)
    (paths : List String) :
    (paths.flatMap (noticesAt parse read w)).filter (fun n => n.level = .info ∨ n.level = .error) =
      paths.filterMap (entryAt? parse read w) := by
  rw [List.filter_flatMap, List.filterMap_eq_flatMap_toList]
  congr 1
  funext path
  exact filter_noticesAt tells

theorem findInModule_of_run {read : String → Logged OutlineError (List α)}
    {reading : Logged ModuleError (Except ModuleError (List α))}
    {result : Except ModuleError (List α)}
    (run : Pool.run Logged.worker σ ((Glob.expand w patterns).2.map (findInFile read w)) = reading)
    (ends : reading.result = .ok result) :
    findInModule read σ w patterns = ⟨(Glob.expand w patterns).1 ++ reading.notices, result⟩ := by
  simp only [findInModule, findInFiles, run, Bind.bind, Logged.bind, ends, Logged.ofExcept,
    List.append_nil]

/-- Files are read by any schedule. -/
theorem exists_isReadBy
    (tells : ∀ c, ∀ n ∈ (read c).notices, n.level = .warning ∨ n.level = .debug) (σ : Schedule)
    (w : Workspace) (patterns : List String) :
    ∃ n, IsReadBy σ n parse read w patterns (findInModule (readScript parse read) σ w patterns) := by
  obtain ⟨n, told, result, run, does⟩ := Pool.exists_run (δ := ModuleError) σ
    ((Glob.expand w patterns).2.map (findInFile (readScript parse read) w))
  have reading : findInModule (readScript parse read) σ w patterns =
      ⟨(Glob.expand w patterns).1 ++ told, result⟩ := findInModule_of_run run rfl
  have notices : (((Glob.expand w patterns).2.map (findInFile (readScript parse read) w)).take n).map
      Logged.notices = ((Glob.expand w patterns).2.take n).map (noticesAt parse read w) := by
    rw [← List.map_take, List.map_map]
    exact List.map_congr_left fun _ _ => findInFile_notices
  have results : gather (((Glob.expand w patterns).2.map
      (findInFile (readScript parse read) w)).map Logged.result) =
      firstErrorOrAll (faultAt? parse read w) (foundAt parse read w) (Glob.expand w patterns).2 := by
    rw [List.map_map]
    exact gather_eq (findInFile_result parse read w) _
  have woven := does.woven
  rw [notices] at woven
  refine ⟨n, ?_, ⟨told, ?_, woven⟩, ?_, ?_, ?_, ?_⟩
  · rw [reading]
    simpa using does.all
  · rw [reading]
  · have perm := woven.perm.filter (fun n => n.level = .info ∨ n.level = .error)
    rw [← List.flatMap_def, filter_flatMap_noticesAt tells] at perm
    rw [reading, List.filter_append, filter_expand, List.nil_append]
    exact perm
  · intro e failed
    rw [reading] at failed
    obtain ⟨job, done, fault⟩ := does.failed e failed
    rw [← List.map_take] at done
    obtain ⟨path, member, rfl⟩ := List.mem_map.mp done
    rw [findInFile_result, outcome_eq_error_iff] at fault
    exact ⟨path, member, fault⟩
  · intro xs
    rw [reading, ← results]
    exact does.eq_ok_iff
  · intro single
    obtain ⟨told_eq, result_eq⟩ := does.inOrder single
    rw [List.flatMap_def, notices, ← List.flatMap_def] at told_eq
    rw [reading, told_eq, result_eq, results]
    exact ⟨rfl, rfl⟩

/-- All files are read if none is given up. -/
theorem IsReadBy.take_eq (reads : IsReadBy σ n parse read w patterns reading)
    (whole : .close ∉ σ.turns) : (Glob.expand w patterns).2.take n = (Glob.expand w patterns).2 :=
  List.take_of_length_le (reads.all.resolve_right fun closed => whole closed.1)

theorem isReadInOrder_findInModule
    (tells : ∀ c, ∀ n ∈ (read c).notices, n.level = .warning ∨ n.level = .debug)
    (single : σ.workers ≤ 1) (whole : .close ∉ σ.turns) (w : Workspace) (patterns : List String) :
    IsReadInOrder parse read w patterns
      (findInModule (readScript parse read) σ w patterns) := by
  obtain ⟨n, reads⟩ : ∃ n, IsReadBy σ n parse read w patterns
      (findInModule (readScript parse read) σ w patterns) := exists_isReadBy tells σ w patterns
  obtain ⟨notices, result⟩ := reads.inOrder single
  rw [reads.take_eq whole] at notices
  refine ⟨Glob.nodup_expandFrom List.nodup_nil, result, notices, ?_⟩
  rw [notices, List.filter_append, filter_expand, List.nil_append, filter_flatMap_noticesAt tells]

end Schedules

theorem level_of_mem_outline {o : OutlineOptions} {text : String} {n : Notice}
    (hn : n ∈ (outline o text).notices) : n.level = .warning ∨ n.level = .debug :=
  (Parser.runs_takeAll _ _).level_of_mem hn

theorem level_of_mem_draft {o : OutlineOptions} {text : String} {n : Notice}
    (hn : n ∈ (draft o text).notices) : n.level = .warning ∨ n.level = .debug :=
  (Parser.runs_takeAll _ _).level_of_mem hn

section Outlines

variable {parse : ByteArray → Script.SyntaxNode} {o : OutlineOptions} {w : Workspace} {path : String}
  {e : ModuleError}

theorem exists_isReadBy_moduleOutline (parse : ByteArray → Script.SyntaxNode) (o : OutlineOptions)
    (σ : Schedule) (w : Workspace) (patterns : List String) :
    ∃ n, IsReadBy σ n parse (outline o) w patterns (moduleOutline parse o σ w patterns) :=
  exists_isReadBy (fun _ _ => level_of_mem_outline) σ w patterns

/-- The outline of a module does not depend on the schedule. -/
theorem moduleOutline_result_ok_iff {σ : Schedule} {patterns : List String} {cs : List Entity} :
    (moduleOutline parse o σ w patterns).result = .ok cs ↔
      (∀ path ∈ (Glob.expand w patterns).2, faultAt? parse (outline o) w path = none) ∧
        (Glob.expand w patterns).2.flatMap (foundAt parse (outline o) w) = cs := by
  obtain ⟨n, reads⟩ := exists_isReadBy_moduleOutline parse o σ w patterns
  rw [reads.found, firstErrorOrAll_eq_ok_iff]

/-- With an outline, all files are told about, by any schedule. -/
theorem perm_moduleOutline_notices {σ : Schedule} {patterns : List String} {cs : List Entity}
    (outlined : (moduleOutline parse o σ w patterns).result = .ok cs) :
    (moduleOutline parse o σ w patterns).notices.Perm ((Glob.expand w patterns).1 ++
      (Glob.expand w patterns).2.flatMap (noticesAt parse (outline o) w)) := by
  obtain ⟨n, reads⟩ := exists_isReadBy_moduleOutline parse o σ w patterns
  obtain ⟨told, notices, woven⟩ := reads.notices
  have whole : (Glob.expand w patterns).2.take n = (Glob.expand w patterns).2 := by
    rcases reads.all with all | ⟨-, e, failed⟩
    · exact List.take_of_length_le all
    · rw [outlined] at failed
      cases failed
  rw [whole] at woven
  rw [notices, List.flatMap_def]
  exact woven.perm.append_left _

theorem fileOutline_result (parse : ByteArray → Script.SyntaxNode) (o : OutlineOptions)
    (w : Workspace) (path : String) :
    (fileOutline parse o w path).result =
      outcome (faultAt? parse (outline o) w path) (foundAt parse (outline o) w path) :=
  findInFile_result parse (outline o) w path

theorem fileOutline_eq_error_iff :
    (fileOutline parse o w path).result = .error e ↔
      faultAt? parse (outline o) w path = some e := by
  rw [fileOutline_result, outcome_eq_error_iff]

theorem exists_fileOutline_iff :
    (∃ cs, (fileOutline parse o w path).result = .ok cs) ↔
      faultAt? parse (outline o) w path = none := by
  rw [fileOutline_result]
  simp only [outcome_eq_ok_iff, exists_and_left, exists_eq', and_true]

/-- The error of a module is that of one of its files. -/
theorem exists_fault_of_moduleOutline {σ : Schedule} {patterns : List String}
    (failed : (moduleOutline parse o σ w patterns).result = .error e) :
    ∃ path ∈ (Glob.expand w patterns).2, (fileOutline parse o w path).result = .error e := by
  obtain ⟨n, reads⟩ := exists_isReadBy_moduleOutline parse o σ w patterns
  obtain ⟨path, read, fault⟩ := reads.failed e failed
  exact ⟨path, List.mem_of_mem_take read, fileOutline_eq_error_iff.mpr fault⟩

end Outlines

/-- A fault that is noticed before the next file is taken leaves nothing to be read. -/
example :
    let w : Workspace := ⟨[(["a.js"], .file (Text.Utf8.encode "/*@input a*/")),
      (["b.js"], .file (Text.Utf8.encode "/*@form B*/"))]⟩
    (moduleOutline Script.scannedTree (.ofDialect .form) ⟨1, [.take, .go 0, .go 0, .close]⟩ w
      ["a.js", "b.js"]).notices =
        [.fileFailed "a.js" (OutlineError.orphanChild 1 "@input a").message] := by
  decide +kernel

end TagOutline
