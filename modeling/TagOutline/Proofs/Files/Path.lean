import Mathlib.Data.List.Induction
import Mathlib.Data.List.TakeWhile
import TagOutline.Files.Path

/-!
# Parts of paths

A path is cut at its last slash: what follows it is the last part, and the parts before it are those
of the path that leads there.
-/

namespace TagOutline.Path

/-- A slash stands between the parts in front of it and those behind it. -/
theorem parts_append_slash (xs ys : List Char) :
    parts (xs ++ '/' :: ys) = parts xs ++ parts ys :=
  List.splitOn_append_cons_self xs ys

theorem parts_of_notMem {cs : List Char} (h : '/' ∉ cs) : parts cs = [cs] :=
  List.splitOn_eq_singleton h

theorem ne_slash_of_mem_reverse {cs : List Char} (h : '/' ∉ cs) :
    ∀ c ∈ cs.reverse, decide (c ≠ '/') = true := by
  intro c hc
  rw [decide_eq_true_eq]
  rintro rfl
  exact h (List.mem_reverse.mp hc)

theorem lastPart_append_slash (xs : List Char) {ys : List Char} (h : '/' ∉ ys) :
    lastPart (xs ++ '/' :: ys) = ys := by
  rw [lastPart, List.reverse_append, List.reverse_cons, List.append_assoc,
    List.takeWhile_append_of_pos (ne_slash_of_mem_reverse h)]
  simp

theorem lastPart_of_notMem {cs : List Char} (h : '/' ∉ cs) : lastPart cs = cs := by
  rw [lastPart, List.takeWhile_eq_self_iff.mpr (ne_slash_of_mem_reverse h), List.reverse_reverse]

/-- A path has no slash, or it is cut at its last one. -/
theorem exists_last_slash (cs : List Char) :
    '/' ∉ cs ∨ ∃ xs ys, cs = xs ++ '/' :: ys ∧ '/' ∉ ys := by
  induction cs with
  | nil => exact Or.inl (by simp)
  | cons c cs ih =>
    rcases ih with none | ⟨xs, ys, rfl, hys⟩
    · by_cases hc : c = '/'
      · exact Or.inr ⟨[], cs, by simp [hc], none⟩
      · exact Or.inl (by simp [none, Ne.symm hc])
    · exact Or.inr ⟨c :: xs, ys, rfl, hys⟩

/-- The last part stands behind the others. -/
theorem parts_eq_dropLast (cs : List Char) : parts cs = (parts cs).dropLast ++ [lastPart cs] := by
  rcases exists_last_slash cs with none | ⟨xs, ys, rfl, hys⟩
  · rw [parts_of_notMem none, lastPart_of_notMem none]
    rfl
  · rw [parts_append_slash, parts_of_notMem hys, lastPart_append_slash xs hys]
    simp

/-! Slashes at the end. -/

theorem withoutSlashes_concat (cs : List Char) :
    withoutSlashes (cs ++ ['/']) = withoutSlashes cs := by
  simp [withoutSlashes]

theorem withoutSlashes_concat_of_ne {c : Char} (h : c ≠ '/') (cs : List Char) :
    withoutSlashes (cs ++ [c]) = cs ++ [c] := by
  simp [withoutSlashes, h]

theorem withoutSlashes_prefix (cs : List Char) : withoutSlashes cs <+: cs := by
  rw [withoutSlashes, ← List.reverse_suffix, List.reverse_reverse]
  exact List.dropWhile_suffix _

/-- A path whose last part is a name does not end with a slash. -/
theorem withoutSlashes_of_lastPart {cs : List Char} (h : lastPart cs ≠ []) :
    withoutSlashes cs = cs := by
  cases cs using List.reverseRecOn with
  | nil => rfl
  | append_singleton cs c =>
    apply withoutSlashes_concat_of_ne
    rintro rfl
    exact h (lastPart_append_slash cs List.not_mem_nil)

/-- The path that leads to the last part: without the slashes at its end, or all slashes. -/
theorem leadingPart_append_slash (xs : List Char) {ys : List Char} (h : '/' ∉ ys) :
    leadingPart (xs ++ '/' :: ys) = xs ++ ['/'] ∨
      leadingPart (xs ++ '/' :: ys) = withoutSlashes xs := by
  have head : ((xs ++ '/' :: ys).reverse.dropWhile (· ≠ '/')).reverse = xs ++ ['/'] := by
    rw [List.reverse_append, List.reverse_cons, List.append_assoc,
      List.dropWhile_append_of_pos (ne_slash_of_mem_reverse h)]
    simp
  rw [leadingPart, head]
  split
  · exact Or.inl rfl
  · exact Or.inr (withoutSlashes_concat xs)

theorem leadingPart_of_notMem {cs : List Char} (h : '/' ∉ cs) : leadingPart cs = [] := by
  have head : (cs.reverse.dropWhile (· ≠ '/')).reverse = [] := by
    rw [List.dropWhile_eq_nil_iff.mpr (ne_slash_of_mem_reverse h), List.reverse_nil]
  rw [leadingPart, head]
  rfl

end TagOutline.Path
