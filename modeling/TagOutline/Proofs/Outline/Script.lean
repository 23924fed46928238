import TagOutline.Outline.Script
import TagOutline.Proofs.Script.Pieces

/-!
# Outlines one after another

Several texts, or several files, are read one after another. Either one of them fails, and the first
error is the result, or all that was found is, in order. Texts behind a failing one are not read.
The texts of a script are its block comments, as a parser finds them, and no other mark in it is
taken for one.
-/

namespace TagOutline

variable {ε α β : Type}

namespace Logged

/-- The error that the work ended with. -/
def error? (x : Logged ε α) : Option ε :=
  match x.result with
  | .error e => some e
  | .ok _ => none

/-- What the work found before it ended without an error. -/
def found (x : Logged ε (List α)) : List α :=
  match x.result with
  | .error _ => []
  | .ok xs => xs

theorem result_of_error? {x : Logged ε α} {e : ε} (h : x.error? = some e) :
    x.result = .error e := by
  unfold error? at h
  split at h
  next f hf =>
    cases h
    exact hf
  · cases h

theorem result_of_no_error {x : Logged ε (List α)} (h : x.error? = none) :
    x.result = .ok x.found := by
  unfold error? at h
  split at h
  · cases h
  next xs hxs => rw [found, hxs]

end Logged

/-- What was found, unless there is an error. -/
def outcome (error? : Option ε) (found : α) : Except ε α :=
  match error? with
  | some e => .error e
  | none => .ok found

/-- The first error, or all that was found. -/
def firstErrorOrAll (error? : β → Option ε) (found : β → List α) (bs : List β) :
    Except ε (List α) :=
  outcome (bs.findSome? error?) (bs.flatMap found)

theorem outcome_eq_error_iff {error? : Option ε} {found : α} {e : ε} :
    outcome error? found = .error e ↔ error? = some e := by
  cases error? <;> simp [outcome]

theorem outcome_eq_ok_iff {error? : Option ε} {found a : α} :
    outcome error? found = .ok a ↔ error? = none ∧ found = a := by
  cases error? <;> simp [outcome]

theorem firstErrorOrAll_eq_error_iff {error? : β → Option ε} {found : β → List α} {bs : List β}
    {e : ε} : firstErrorOrAll error? found bs = .error e ↔
      ∃ before b after, bs = before ++ b :: after ∧ (∀ c ∈ before, error? c = none) ∧
        error? b = some e := by
  rw [firstErrorOrAll, outcome_eq_error_iff, List.findSome?_eq_some_iff]
  constructor
  · rintro ⟨before, b, after, whole, error, none⟩
    exact ⟨before, b, after, whole, none, error⟩
  · rintro ⟨before, b, after, whole, none, error⟩
    exact ⟨before, b, after, whole, error, none⟩

theorem firstErrorOrAll_eq_ok_iff {error? : β → Option ε} {found : β → List α} {bs : List β}
    {xs : List α} : firstErrorOrAll error? found bs = .ok xs ↔
      (∀ b ∈ bs, error? b = none) ∧ bs.flatMap found = xs := by
  rw [firstErrorOrAll, outcome_eq_ok_iff, List.findSome?_eq_none_iff]

theorem firstErrorOrAll_cons_of_error {error? : β → Option ε} {found : β → List α} {b : β} {e : ε}
    (h : error? b = some e) (bs : List β) : firstErrorOrAll error? found (b :: bs) = .error e := by
  simp [firstErrorOrAll, outcome, h]

theorem firstErrorOrAll_cons_of_found {error? : β → Option ε} {found : β → List α} {b : β}
    (h : error? b = none) (bs : List β) :
    firstErrorOrAll error? found (b :: bs) =
      (firstErrorOrAll error? found bs).map (found b ++ ·) := by
  rw [firstErrorOrAll, firstErrorOrAll, List.findSome?_cons, h]
  cases bs.findSome? error? with
  | none => rfl
  | some e => rfl

section Texts

variable (read : String → Logged OutlineError (List α))

theorem findInTexts_cons_of_error {t : String} {e : OutlineError} (h : (read t).error? = some e)
    (ts : List String) : findInTexts read (t :: ts) = ⟨(read t).notices, .error e⟩ := by
  simp only [findInTexts, Bind.bind, Logged.bind, Logged.result_of_error? h]

theorem findInTexts_cons_of_found {t : String} (h : (read t).error? = none) (ts : List String) :
    findInTexts read (t :: ts) = ⟨(read t).notices ++ (findInTexts read ts).notices,
      (findInTexts read ts).result.map ((read t).found ++ ·)⟩ := by
  simp only [findInTexts, Bind.bind, Logged.bind, Logged.result_of_no_error h]
  cases (findInTexts read ts).result with
  | error e => rfl
  | ok xs => simp [pure, Except.map]

/-- Texts are read up to the first error. -/
theorem findInTexts_result (ts : List String) :
    (findInTexts read ts).result =
      firstErrorOrAll (fun t => (read t).error?) (fun t => (read t).found) ts := by
  induction ts with
  | nil => rfl
  | cons t ts ih =>
    cases h : (read t).error? with
    | some e =>
      rw [findInTexts_cons_of_error read h]
      exact (firstErrorOrAll_cons_of_error (b := t) h ts).symm
    | none =>
      rw [findInTexts_cons_of_found read h]
      dsimp only
      rw [ih]
      exact (firstErrorOrAll_cons_of_found (b := t) h ts).symm

/-- The texts up to the first one that fails, and that one. -/
def readTexts (ts : List String) : List String :=
  ts.take (ts.findIdx (fun t => (read t).error?.isSome) + 1)

/-- Nothing is told about the texts behind the first error. -/
theorem findInTexts_notices (ts : List String) :
    (findInTexts read ts).notices = (readTexts read ts).flatMap fun t => (read t).notices := by
  induction ts with
  | nil => rfl
  | cons t ts ih =>
    rw [readTexts, List.take_succ_cons, List.findIdx_cons]
    cases h : (read t).error? with
    | some e =>
      rw [findInTexts_cons_of_error read h]
      simp
    | none =>
      rw [findInTexts_cons_of_found read h, ih]
      rfl

end Texts

/-- A script that is put together from comments and strings gives back its comments, in order, each
as it was written and with its line, if the parser finds where they stand. The outline of the script
is made of those of its block comments. -/
theorem scriptOutline_written {parse : ByteArray → Script.SyntaxNode}
    (finds : Script.FindsComments parse) (ps : List Script.Piece) (closed : ∀ p ∈ ps, p.IsClosed)
    (noNull : '\x00' ∉ (Script.written ps).toList) (o : OutlineOptions) :
    let text := Script.written ps
    let bodies := ps.filterMap Script.Piece.blockBody?
    Script.parsedComments parse text = Script.commentsBehind [] ps ∧
    Script.blockComments parse text = bodies ∧
    (scriptOutline parse o text).result =
      firstErrorOrAll (fun b => (outline o b).error?) (fun b => (outline o b).found) bodies ∧
    (scriptDraft parse o text).result =
      firstErrorOrAll (fun b => (draft o b).error?) (fun b => (draft o b).found) bodies := by
  intro text bodies
  have blocks : Script.blockComments parse text = bodies :=
    Script.blockComments_written finds closed noNull
  refine ⟨Script.parsedComments_written finds closed noNull, blocks, ?_, ?_⟩
  · rw [scriptOutline, blocks, findInTexts_result]
  · rw [scriptDraft, blocks, findInTexts_result]

/-- Marks stand in pieces of other kinds and next to the marks that close them. The scanner finds
the comments. -/
theorem scriptOutline_written_nested_marks :
    let ps : List Script.Piece := [.statement "/*@form no*/", .blockComment "/\n@form \"A\" *",
      .lineComment "/*@form no*/", .blockComment "", .statement "'// */", .blockComment "@form B//"]
    Script.FindsComments Script.scannedTree ∧ (∀ p ∈ ps, p.IsClosed) ∧
      '\x00' ∉ (Script.written ps).toList ∧
      Script.parsedComments Script.scannedTree (Script.written ps) =
        [⟨.block, "/\n@form \"A\" *", 2⟩, ⟨.line, "/*@form no*/", 4⟩, ⟨.block, "", 5⟩,
          ⟨.block, "@form B//", 7⟩] ∧
      (scriptOutline Script.scannedTree (.ofDialect .form) (Script.written ps)).result =
        .ok [⟨.form, .text "\"A\" *", [], []⟩, ⟨.form, .text "B//", [], []⟩] := by
  intro ps
  have finds := Script.findsComments_scannedTree
  have closed : ∀ p ∈ ps, p.IsClosed := by decide
  have noNull : '\x00' ∉ (Script.written ps).toList := by decide
  obtain ⟨comments, -, result, -⟩ :=
    scriptOutline_written finds ps closed noNull (.ofDialect .form)
  exact ⟨finds, closed, noNull, comments.trans (by rfl), result.trans (by rfl)⟩

end TagOutline
