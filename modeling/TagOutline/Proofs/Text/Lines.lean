import TagOutline.Text.Lines

/-!
# Cutting a text into lines

The pieces of a text hold no character that it is cut at, and there is one more of them. The lines
of a text hold no line feed, and strings without line feeds are the lines of the text that joins
them. Where there are no other line ends, there is nothing to turn into line feeds.
-/

namespace TagOutline.Text

/-- No piece of a text holds the character that it is cut at. -/
theorem notMem_of_mem_splitOn {separator : Char} {cs piece : List Char}
    (h : piece ∈ cs.splitOn separator) : separator ∉ piece := by
  induction cs generalizing piece with
  | nil =>
    rw [List.splitOn_nil, List.mem_singleton] at h
    simp [h]
  | cons c cs ih =>
    rw [List.splitOn_cons_eq_if_modifyHead] at h
    split at h
    next same =>
      rcases List.mem_cons.mp h with rfl | h
      · simp
      · exact ih h
    next apart =>
      obtain ⟨first, others, pieces⟩ := List.exists_cons_of_ne_nil (List.splitOn_ne_nil separator cs)
      rw [pieces, List.modifyHead_cons] at h
      rcases List.mem_cons.mp h with rfl | h
      · have hfirst : separator ∉ first := ih (by simp [pieces])
        have hc : c ≠ separator := by simpa using apart
        simp [hfirst, hc.symm]
      · exact ih (by simp [pieces, h])

/-- A text is cut into one piece more than it holds the character that it is cut at. -/
theorem length_splitOn (separator : Char) (cs : List Char) :
    (cs.splitOn separator).length = cs.count separator + 1 := by
  induction cs with
  | nil => rfl
  | cons c cs ih =>
    rw [List.splitOn_cons_eq_if_modifyHead, List.count_cons]
    split
    · rw [List.length_cons, ih]
    · rw [List.length_modifyHead, ih, Nat.add_zero]

theorem newline_notMem_of_mem_lines {s l : String} (h : l ∈ lines s) : '\n' ∉ l.toList := by
  unfold lines at h
  split at h
  · simp at h
  · obtain ⟨cs, hcs, rfl⟩ := List.mem_map.mp h
    rw [String.toList_ofList]
    exact notMem_of_mem_splitOn hcs

/-- Strings that hold no line feed are the lines of their joined text, unless that is empty. -/
theorem lines_intercalate_of_ne {ls : List String} (h : ∀ l ∈ ls, '\n' ∉ l.toList)
    (hne : "\n".intercalate ls ≠ "") : lines ("\n".intercalate ls) = ls := by
  have nonempty : ls ≠ [] := by
    rintro rfl
    exact hne rfl
  have hsplit : ("\n".intercalate ls).toList.splitOn '\n' = ls.map String.toList := by
    rw [String.toList_intercalate]
    apply List.splitOn_intercalate
    · intro cs hcs
      obtain ⟨m, hm, rfl⟩ := List.mem_map.mp hcs
      exact h m hm
    · simpa using nonempty
  rw [lines, if_neg (by simpa using hne), hsplit, List.map_map]
  simp [Function.comp_def]

/-- Strings with something between two of them are joined to the empty text only if there is none
or the empty one alone. -/
theorem intercalate_eq_empty {between : String} {ls : List String} (apart : between ≠ "")
    (h : between.intercalate ls = "") : ls = [] ∨ ls = [""] := by
  cases ls with
  | nil => exact Or.inl rfl
  | cons l ls =>
    cases ls with
    | nil => exact Or.inr (by simpa using h)
    | cons m ms => simp [apart] at h

/-- Where none of them is empty, there is none. -/
theorem intercalate_eq_empty_iff {between : String} {ls : List String} (apart : between ≠ "")
    (hne : ∀ l ∈ ls, l ≠ "") : between.intercalate ls = "" ↔ ls = [] := by
  constructor
  · intro h
    rcases intercalate_eq_empty apart h with rfl | rfl
    · rfl
    · exact absurd rfl (hne "" (by simp))
  · rintro rfl
    rfl

/-- Strings that hold no line feed are the lines of their joined text. The empty string is left
out, for alone it is joined to a text without lines. -/
theorem lines_intercalate {ls : List String} (h : ∀ l ∈ ls, '\n' ∉ l.toList)
    (hne : ∀ l ∈ ls, l ≠ "") : lines ("\n".intercalate ls) = ls := by
  by_cases hempty : "\n".intercalate ls = ""
  · obtain rfl := (intercalate_eq_empty_iff (by decide) hne).mp hempty
    rfl
  · exact lines_intercalate_of_ne h hempty

theorem lines_of_ne_empty {s : String} (h : s ≠ "") :
    lines s = (s.toList.splitOn '\n').map String.ofList := by
  rw [lines, if_neg (by simpa using h)]

/-- Only the empty text has fewer lines than it is cut into, and what it is cut into is empty. -/
theorem lines_eq_or (s : String) :
    lines s = (s.toList.splitOn '\n').map String.ofList ∨
      lines s = [] ∧ (s.toList.splitOn '\n').map String.ofList = [""] := by
  by_cases h : s = ""
  · subst h
    exact Or.inr ⟨rfl, rfl⟩
  · exact Or.inl (lines_of_ne_empty h)

/-- The lines of two texts with a line feed between them. Here the empty text counts as a line. -/
theorem lines_append (s t : String) :
    lines (s ++ "\n" ++ t) =
      (s.toList.splitOn '\n').map String.ofList ++ (t.toList.splitOn '\n').map String.ofList := by
  have feed : (s ++ "\n" ++ t).toList = s.toList ++ '\n' :: t.toList := by simp
  have nonempty : s ++ "\n" ++ t ≠ "" := by
    intro h
    rw [h] at feed
    simp at feed
  rw [lines_of_ne_empty nonempty, feed, List.splitOn_append_cons_self, List.map_append]

/-- A text without carriage returns is read as it is. -/
theorem unifyLineEnds_of_notMem {cs : List Char} (h : '\r' ∉ cs) : unifyLineEnds cs = cs := by
  induction cs with
  | nil => rfl
  | cons c cs ih =>
    have hc : c ≠ '\r' := fun hc => h (by simp [hc])
    have plain : unifyLineEnds (c :: cs) = (if c = '\r' then '\n' else c) :: unifyLineEnds cs := by
      rw [unifyLineEnds]
      intro ds hr
      exact absurd hr hc
    rw [plain, if_neg hc, ih fun hcs => h (by simp [hcs])]

end TagOutline.Text
