import TagOutline.Text.Blank

/-!
# Trimmed texts

Trimming takes a blank run off either end and stops at the first character that is not blank. So
a text is a blank run, its trimmed text and a blank run, and this decomposition is the only one
whose middle part has no blank at its ends.
-/

namespace TagOutline.Text

/-- A text with no blank at either end. The empty text is one. -/
structure IsTrimmed (cs : List Char) : Prop where
  head : ∀ c ∈ cs.head?, isBlank c = false
  last : ∀ c ∈ cs.getLast?, isBlank c = false

-- Membership is decided on the text, not on all characters.
instance (cs : List Char) : Decidable (IsTrimmed cs) :=
  decidable_of_iff
    ((cs.head?.all fun c => !isBlank c) = true ∧ (cs.getLast?.all fun c => !isBlank c) = true) <| by
    simp only [Option.all_eq_true, Bool.not_eq_true']
    exact ⟨fun h => ⟨h.1, h.2⟩, fun h => ⟨h.head, h.last⟩⟩

theorem isTrimmed_nil : IsTrimmed [] :=
  ⟨by simp, by simp⟩

/-- A blank run that does not end with a blank is empty. -/
theorem eq_nil_of_blank {cs : List Char} (blank : ∀ c ∈ cs, isBlank c = true)
    (last : ∀ c ∈ cs.getLast?, isBlank c = false) : cs = [] := by
  cases h : cs.getLast? with
  | none => exact List.getLast?_eq_none_iff.mp h
  | some c =>
    have hc : isBlank c = true := blank c (List.mem_of_getLast? h)
    rw [last c h] at hc
    cases hc

theorem trimEnd_of_blank {cs : List Char} (h : ∀ c ∈ cs, isBlank c = true) : trimEnd cs = [] := by
  induction cs with
  | nil => rfl
  | cons c cs ih =>
    have hc : isBlank c = true := h c (by simp)
    have hcs : trimEnd cs = [] := ih fun d hd => h d (List.mem_cons_of_mem _ hd)
    simp [trimEnd, hcs, hc]

/-- A blank run goes from the end of a text whose last character is not blank. -/
theorem trimEnd_append {core post : List Char} (last : ∀ c ∈ core.getLast?, isBlank c = false)
    (blank : ∀ c ∈ post, isBlank c = true) : trimEnd (core ++ post) = core := by
  induction core with
  | nil => exact trimEnd_of_blank blank
  | cons c core ih =>
    cases core with
    | nil =>
      have hc : isBlank c = false := last c (by simp)
      simp [trimEnd, trimEnd_of_blank blank, hc]
    | cons d ds =>
      have hds : trimEnd (d :: ds ++ post) = d :: ds := ih (by simpa using last)
      rw [List.cons_append, trimEnd, hds]

/-- Only a blank run goes from the end of a text. -/
theorem exists_trimEnd (cs : List Char) :
    ∃ post, (∀ c ∈ post, isBlank c = true) ∧ cs = trimEnd cs ++ post ∧
      ∀ c ∈ (trimEnd cs).getLast?, isBlank c = false := by
  induction cs with
  | nil => exact ⟨[], by simp [trimEnd]⟩
  | cons c cs ih =>
    obtain ⟨post, blank, whole, last⟩ := ih
    cases ht : trimEnd cs with
    | nil =>
      rw [ht] at whole
      by_cases hc : isBlank c = true
      · refine ⟨c :: cs, ?_, ?_, ?_⟩
        · intro d hd
          rcases List.mem_cons.mp hd with rfl | hd
          · exact hc
          · exact blank d (by simpa [whole] using hd)
        · simp [trimEnd, ht, hc]
        · simp [trimEnd, ht, hc]
      · exact ⟨post, blank, by simp [trimEnd, ht, hc, ← whole], by simp [trimEnd, ht, hc]⟩
    | cons d ds =>
      rw [ht] at whole last
      refine ⟨post, blank, ?_, ?_⟩
      · rw [trimEnd, ht]
        simp [whole]
      · rw [trimEnd, ht]
        simpa using last

/-- The middle part of a text comes out by trimming if the other parts are blank. -/
theorem trim_eq {pre core post : List Char} (before : ∀ c ∈ pre, isBlank c = true)
    (trimmed : IsTrimmed core) (after : ∀ c ∈ post, isBlank c = true) :
    trim (pre ++ (core ++ post)) = core := by
  rw [trim, trimStart, List.dropWhile_append_of_pos before]
  cases core with
  | nil =>
    have hpost : trimEnd (post.dropWhile isBlank) = [] :=
      trimEnd_of_blank fun c hc => after c ((List.dropWhile_suffix _).subset hc)
    simpa using hpost
  | cons c core =>
    have hc : ¬ isBlank c = true := by simp [trimmed.head c (by simp)]
    rw [List.cons_append, List.dropWhile_cons_of_neg hc, ← List.cons_append]
    exact trimEnd_append trimmed.last after

/-- A text is its trimmed text between two blank runs. -/
theorem exists_trim (cs : List Char) :
    ∃ pre post, (∀ c ∈ pre, isBlank c = true) ∧ (∀ c ∈ post, isBlank c = true) ∧
      cs = pre ++ (trim cs ++ post) := by
  obtain ⟨post, blank, whole, -⟩ := exists_trimEnd (trimStart cs)
  refine ⟨cs.takeWhile isBlank, post, ?_, blank, ?_⟩
  · exact List.all_eq_true.mp List.all_takeWhile
  · rw [trim, ← whole]
    exact List.takeWhile_append_dropWhile.symm

theorem isTrimmed_trim (cs : List Char) : IsTrimmed (trim cs) := by
  obtain ⟨post, -, whole, last⟩ := exists_trimEnd (trimStart cs)
  refine ⟨?_, last⟩
  intro c hc
  have hstart : c ∈ (trimStart cs).head? := by
    obtain ⟨rest, hrest⟩ := List.head?_eq_some_iff.mp hc
    rw [trim] at hrest
    rw [whole, hrest]
    simp
  have hfirst := List.head?_dropWhile_not isBlank cs
  rw [trimStart] at hstart
  rw [Option.mem_def.mp hstart] at hfirst
  simpa using hfirst

theorem mem_of_mem_trim {c : Char} {cs : List Char} (h : c ∈ trim cs) : c ∈ cs := by
  obtain ⟨pre, post, -, -, whole⟩ := exists_trim cs
  rw [whole]
  exact List.mem_append_right _ (List.mem_append_left _ h)

end TagOutline.Text
