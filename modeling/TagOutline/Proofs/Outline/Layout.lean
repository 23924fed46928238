import TagOutline.Proofs.Outline.Correspondence
import TagOutline.Proofs.Tag.Layout
import TagOutline.Proofs.Tag.Source

/-!
# Texts in another layout

The layout of a text is the blanks around its lines and between the keys and the values of its
tags, and the lines between its tag lines. An edit of the layout leaves the tags as they are, but
for the lines that they stand on, and so does any number of edits one after another. The outline
is the same, and an error is told at the line where its tag has come to stand.
-/

namespace TagOutline

/-- The tag of a line that has moved, by as many lines as `shift` gives for it. -/
def Tag.shifted (shift : Int → Int) (t : Tag) : Tag :=
  { t with line := t.line + shift t.line }

theorem Tag.corresponds_shifted (o : OutlineOptions) (shift : Int → Int) (t : Tag) :
    t.Corresponds o o (fun line => line + shift line) (t.shifted shift) :=
  ⟨rfl, fun _ => rfl, rfl, rfl⟩

/-- An edit of the lines of a text. Places are counted from zero. -/
inductive LayoutEdit where
  /-- Writes another line in the place of one. -/
  | relay (place : Nat) (line : String)
  | insert (place : Nat) (lines : List String)
  | delete (place count : Nat)

namespace LayoutEdit

def apply (ls : List String) : LayoutEdit → List String
  | relay place line => ls.set place line
  | insert place lines => ls.take place ++ (lines ++ ls.drop place)
  | delete place count => ls.take place ++ ls.drop (place + count)

/-- The number of lines that an edit inserts before a line, less those that it deletes there. Lines
are counted from one, so line `place` is the last one that the edit does not move. -/
def shift : LayoutEdit → Int → Int
  | relay _ _, _ => 0
  | insert place lines, line => if place < line then lines.length else 0
  | delete place count, line => if place < line then -count else 0

/-- An edit of the layout alone: a line gets other blanks, or lines that are no tag lines come or
go. No edit makes two lines of one. -/
inductive Fits (ls : List String) : LayoutEdit → Prop where
  | relay {place : Nat} {old line : String} (present : ls[place]? = some old)
      (relaid : Tag.Relaid old line) (oneLine : '\n' ∉ line.toList) : Fits ls (.relay place line)
  | insert {place : Nat} {lines : List String} (inside : place ≤ ls.length)
      (plain : ∀ l ∈ lines, Tag.IsPlain l) (oneLine : ∀ l ∈ lines, '\n' ∉ l.toList) :
      Fits ls (.insert place lines)
  | delete {place count : Nat} (inside : place + count ≤ ls.length)
      (plain : ∀ l ∈ (ls.drop place).take count, Tag.IsPlain l) : Fits ls (.delete place count)

/-- What edits make of lines, one after another. -/
def applyAll (ls : List String) : List LayoutEdit → List String
  | [] => ls
  | e :: es => applyAll (e.apply ls) es

/-- The number of lines that edits insert before a line, less those that they delete there. Each
edit finds the line where the edits before it have moved it. -/
def shiftAll : List LayoutEdit → Int → Int
  | [], _ => 0
  | e :: es, line => e.shift line + shiftAll es (line + e.shift line)

/-- Every edit is one of the layout that the edits before it have left. -/
def AllFit (ls : List String) : List LayoutEdit → Prop
  | [] => True
  | e :: es => e.Fits ls ∧ AllFit (e.apply ls) es

/-- A text after edits of its lines. -/
def applyToText (es : List LayoutEdit) (text : String) : String :=
  "\n".intercalate (applyAll (Text.lines text) es)

variable {ls first others plain plain' : List String} {e : LayoutEdit} {es : List LayoutEdit}

theorem tagsAfter_plain (isPlain : ∀ l ∈ plain, Tag.IsPlain l) (before : Nat) :
    Source.tagsAfter before plain = [] :=
  Source.tagsAfter_eq_nil (fun l hl _ => Tag.ofLine?_eq_none_iff.mpr (isPlain l hl)) before

/-- The tags of lines of which some in the middle are no tag lines. -/
theorem tagsAfter_around (isPlain : ∀ l ∈ plain, Tag.IsPlain l) :
    Source.tagsAfter 0 (first ++ (plain ++ others)) =
      Source.tagsAfter 0 first ++ Source.tagsAfter (first.length + plain.length) others := by
  rw [Source.tagsAfter_append, Source.tagsAfter_append, tagsAfter_plain isPlain, List.nil_append,
    Nat.zero_add]

/-- Where lines that are no tag lines take the place of others, the tags behind them move and those
before them do not. -/
theorem tagsAfter_replaced (first others : List String) (shift : Int → Int)
    (isPlain : ∀ l ∈ plain, Tag.IsPlain l)
    (isPlain' : ∀ l ∈ plain', Tag.IsPlain l)
    (kept : ∀ line ≤ (first.length : Int), shift line = 0)
    (moved : ∀ line > (first.length + plain.length : Int),
      shift line = plain'.length - plain.length) :
    Source.tagsAfter 0 (first ++ (plain' ++ others)) =
      (Source.tagsAfter 0 (first ++ (plain ++ others))).map (Tag.shifted shift) := by
  have early : ∀ t ∈ Source.tagsAfter 0 first, Tag.shifted shift t = t := by
    intro t ht
    have last := (Source.line_of_mem_tagsAfter ht).2
    have still : shift t.line = 0 := kept t.line (by omega)
    simp [Tag.shifted, still]
  have late : ∀ t ∈ Source.tagsAfter (first.length + plain.length) others,
      Tag.shifted shift t = { t with line := t.line +
        (((first.length + plain'.length : Nat) : Int) - (first.length + plain.length : Nat)) } := by
    intro t ht
    have behind := (Source.line_of_mem_tagsAfter ht).1
    rw [Tag.shifted, moved t.line (by omega)]
    congr 2
    omega
  rw [tagsAfter_around isPlain, tagsAfter_around isPlain', List.map_append,
    List.map_congr_left early, List.map_congr_left late, List.map_id',
    Source.tagsAfter_shifted (first.length + plain.length) (first.length + plain'.length)]

/-- An edit of the layout moves the tags with their lines and changes nothing else in them. -/
theorem Fits.tagsAfter (h : e.Fits ls) :
    Source.tagsAfter 0 (e.apply ls) = (Source.tagsAfter 0 ls).map (Tag.shifted e.shift) := by
  have noLines : ∀ l ∈ ([] : List String), Tag.IsPlain l := by simp
  cases h with
  | @relay place old line present relaid oneLine =>
    obtain ⟨inside, hold⟩ := List.getElem?_eq_some_iff.mp present
    have still : Tag.shifted (LayoutEdit.shift (.relay place line)) = id := by
      funext t
      simp [Tag.shifted, LayoutEdit.shift]
    have whole : ls = ls.take place ++ old :: ls.drop (place + 1) := by
      rw [← hold, ← List.drop_eq_getElem_cons inside, List.take_append_drop]
    have same : Source.tagsAfter 0 (ls.take place ++ line :: ls.drop (place + 1)) =
        Source.tagsAfter 0 (ls.take place ++ old :: ls.drop (place + 1)) := by
      simp only [Source.tagsAfter_append, Source.tagsAfter, relaid.ofLine?]
    rw [still, List.map_id, apply, List.set_eq_take_append_cons_drop, if_pos inside, same, ← whole]
  | @insert place lines inside isPlain oneLine =>
    have length : (ls.take place).length = place := List.length_take_of_le inside
    have inserted := tagsAfter_replaced (ls.take place) (ls.drop place)
      (LayoutEdit.shift (.insert place lines)) noLines isPlain
    rw [List.nil_append, List.take_append_drop, length] at inserted
    apply inserted
    · intro line before
      rw [LayoutEdit.shift, if_neg (by omega)]
    · intro line behind
      have behind : place < line := by simpa using behind
      simp [LayoutEdit.shift, behind]
  | @delete place count inside isPlain =>
    have length : (ls.take place).length = place := List.length_take_of_le (by omega)
    have gone : ((ls.drop place).take count).length = count :=
      List.length_take_of_le (by rw [List.length_drop]; omega)
    have deleted := tagsAfter_replaced (ls.take place) ((ls.drop place).drop count)
      (LayoutEdit.shift (.delete place count)) isPlain noLines
    rw [List.take_append_drop, List.take_append_drop, List.nil_append, List.drop_drop, length,
      gone] at deleted
    apply deleted
    · intro line before
      rw [LayoutEdit.shift, if_neg (by omega)]
    · intro line behind
      have behind : place < line := by omega
      simp [LayoutEdit.shift, behind]

/-- Edits of the layout, one after another, move the tags with their lines. -/
theorem tagsAfter_applyAll (h : AllFit ls es) :
    Source.tagsAfter 0 (applyAll ls es) =
      (Source.tagsAfter 0 ls).map (Tag.shifted (shiftAll es)) := by
  induction es generalizing ls with
  | nil =>
    have still : Tag.shifted (shiftAll []) = id := by
      funext t
      simp [Tag.shifted, shiftAll]
    rw [still, List.map_id, applyAll]
  | cons e es ih =>
    obtain ⟨fits, others⟩ := h
    have both : Tag.shifted (shiftAll (e :: es)) =
        Tag.shifted (shiftAll es) ∘ Tag.shifted e.shift := by
      funext t
      simp [Tag.shifted, shiftAll, Int.add_assoc]
    rw [applyAll, ih others, fits.tagsAfter, List.map_map, both]

/-- An edit of the layout makes no line into two. -/
theorem Fits.oneLine (h : e.Fits ls) (oneLine : ∀ l ∈ ls, '\n' ∉ l.toList) :
    ∀ l ∈ e.apply ls, '\n' ∉ l.toList := by
  intro l hl
  cases h with
  | relay present relaid newLine =>
    rcases List.mem_or_eq_of_mem_set hl with hl | rfl
    · exact oneLine l hl
    · exact newLine
  | insert inside isPlain newLines =>
    rcases List.mem_append.mp hl with hl | hl
    · exact oneLine l (List.mem_of_mem_take hl)
    · rcases List.mem_append.mp hl with hl | hl
      · exact newLines l hl
      · exact oneLine l (List.mem_of_mem_drop hl)
  | delete inside isPlain =>
    rcases List.mem_append.mp hl with hl | hl
    · exact oneLine l (List.mem_of_mem_take hl)
    · exact oneLine l (List.mem_of_mem_drop hl)

theorem oneLine_applyAll (h : AllFit ls es) (oneLine : ∀ l ∈ ls, '\n' ∉ l.toList) :
    ∀ l ∈ applyAll ls es, '\n' ∉ l.toList := by
  induction es generalizing ls with
  | nil => exact oneLine
  | cons e es ih => exact ih h.2 (h.1.oneLine oneLine)

/-- The tags of a text after edits of its layout. -/
theorem ahead_applyToText {text : String} (h : AllFit (Text.lines text) es) :
    (Source.ofText (applyToText es text)).ahead =
      (Source.ofText text).ahead.map (Tag.shifted (shiftAll es)) := by
  have oneLine := oneLine_applyAll h fun l hl => Text.newline_notMem_of_mem_lines hl
  rw [applyToText, Source.ahead_ofText_intercalate oneLine, Source.ahead_ofText,
    tagsAfter_applyAll h]

end LayoutEdit

/-- Edits of the layout of a text leave its outline as it is. Where it has none, the error after the
edits says the same, at a line that has moved by the lines that were inserted before it, less those
that were deleted there. -/
theorem outline_relaid (o : OutlineOptions) (text : String) (es : List LayoutEdit)
    (fit : LayoutEdit.AllFit (Text.lines text) es) :
    let before := (outline o text).result
    let after := (outline o (LayoutEdit.applyToText es text)).result
    (∃ entities, before = .ok entities ∧ after = .ok entities) ∨
    (∃ line content content', before = .error (.orphanChild line content) ∧
      after = .error (.orphanChild (line + LayoutEdit.shiftAll es line) content') ∧
      (orphanReport (line + LayoutEdit.shiftAll es line) content').message =
        (orphanReport line content).message) ∨
    (∃ missing, before = .error (.childless missing) ∧ after = .error (.childless missing)) := by
  intro before after
  have both := outline_corresponding rfl (LayoutEdit.ahead_applyToText fit)
    fun t _ => t.corresponds_shifted o (LayoutEdit.shiftAll es)
  rcases both with ⟨cs, ok, ok'⟩ | ⟨e, e', error, error', errors⟩
  · exact Or.inl ⟨_, ok, ok'⟩
  · cases errors with
    | orphanChild line content content' =>
      exact Or.inr (Or.inl ⟨line, content, content', error, error', rfl⟩)
    | childless unable => exact Or.inr (Or.inr ⟨_, error, error'⟩)

/-- A child without a container, given other blanks and other lines before it. -/
theorem outline_relaid_orphan :
    let es : List LayoutEdit :=
      [.relay 1 "\t@input a\r", .relay 1 "\t@input \t a\r", .insert 0 ["", "no @form"], .delete 2 1]
    LayoutEdit.AllFit (Text.lines "note\n@input a") es ∧
    LayoutEdit.applyToText es "note\n@input a" = "\nno @form\n\t@input \t a\r" ∧
    (outline (.ofDialect .form) "note\n@input a").result =
      .error (.orphanChild 2 "@input a") ∧
    ∃ content, (outline (.ofDialect .form) "\nno @form\n\t@input \t a\r").result =
      .error (.orphanChild 3 content) := by
  intro es
  have before : ∀ c ∈ ['\t'], Text.isBlank c = true := List.all_eq_true.mp rfl
  have after : ∀ c ∈ ['\r'], Text.isBlank c = true := List.all_eq_true.mp rfl
  have narrow : ∀ c ∈ [' '], Text.isBlank c = true := List.all_eq_true.mp rfl
  have wide : ∀ c ∈ [' ', '\t', ' '], Text.isBlank c = true := List.all_eq_true.mp rfl
  have key : Tag.IsKey "input" := by decide
  have around : Tag.Relaid "@input a" "\t@input a\r" :=
    @Tag.Relaid.around _ _ [] "@input a".toList [] ['\t'] ['\r'] (by decide) (by decide) nofun nofun
      before after
  have laid : Tag.Laid "\t@input a\r".toList ['\t'] "input".toList [' '] ['a'] ['\r'] :=
    ⟨by decide, before, key, narrow, by decide, nofun, after⟩
  have laid' :
      Tag.Laid "\t@input \t a\r".toList ['\t'] "input".toList [' ', '\t', ' '] ['a'] ['\r'] :=
    ⟨by decide, before, key, wide, by decide, nofun, after⟩
  have fit : LayoutEdit.AllFit (Text.lines "note\n@input a") es :=
    ⟨.relay (by decide) around (by decide),
      .relay (by decide) (.between laid laid' nofun nofun) (by decide),
      .insert (by decide) (by decide) (by decide), .delete (by decide) (by decide), trivial⟩
  have edited : LayoutEdit.applyToText es "note\n@input a" = "\nno @form\n\t@input \t a\r" := by
    decide
  have orphan : (outline (.ofDialect .form) "note\n@input a").result =
      .error (.orphanChild 2 "@input a") := rfl
  refine ⟨fit, edited, orphan, ?_⟩
  rcases outline_relaid (.ofDialect .form) _ es fit with
    ⟨entities, ok, -⟩ | ⟨line, content, content', error, error', -⟩ | ⟨missing, error, -⟩
  · rw [orphan] at ok
    cases ok
  · rw [orphan] at error
    cases error
    rw [edited] at error'
    exact ⟨content', error'⟩
  · rw [orphan] at error
    cases error

end TagOutline
