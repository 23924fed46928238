import TagOutline.Proofs.Tag.Layout

/-!
# One reading of a line

A trimmed line that starts with the sigil is a sigil, a key, a blank gap and a value in one way
only: the key ends before the first blank, and the value is what the blanks leave of the rest. So a
line either holds no tag or holds just one, and its parts can be set with any blanks.
-/

namespace TagOutline.Tag

open Text

variable {s : String} {line key gap value : List Char}

/-- A plain line is blank or starts with something else than the sigil. -/
theorem isPlain_iff : IsPlain s ↔ trimmed s = "" ∨ (trimmed s).toList.head? ≠ some sigil := by
  have chars : (trimmed s).toList = trim s.toList := String.toList_ofList
  constructor
  · intro plain
    right
    rw [chars]
    exact plain
  · rintro (empty | other)
    · rw [empty] at chars
      rw [IsPlain, ← chars]
      decide
    · rwa [chars] at other

/-- The parts of a line are determined by the line. -/
theorem Parts.unique {key' gap' value' : List Char} (h : Parts line key gap value)
    (h' : Parts line key' gap' value') : key' = key ∧ gap' = gap ∧ value' = value := by
  have rest : key' ++ (gap' ++ value') = key ++ (gap ++ value) :=
    (List.cons.inj (h'.whole.symm.trans h.whole)).2
  have keys : key' = key := by
    rw [← takeWhile_isKeyChar h'.solid h'.isBlank_head, rest,
      takeWhile_isKeyChar h.solid h.isBlank_head]
  have behind : gap' ++ value' = gap ++ value := List.append_cancel_left (keys ▸ rest)
  have values : value' = value := by
    have mine : trim (gap ++ value) = value := by
      simpa using @trim_eq gap value [] h.blank h.trimmed (by simp)
    have other : trim (gap' ++ value') = value' := by
      simpa using @trim_eq gap' value' [] h'.blank h'.trimmed (by simp)
    rw [← mine, ← behind, other]
  exact ⟨keys, List.append_cancel_right (values ▸ behind), values⟩

/-- A line holds no tag if and only if it is blank or its first character that is not blank is not
the sigil. Otherwise it is, without the blanks around it, a sigil, a key, a gap and a value in just
one way, where the key has no blank, the gap is blank, the value has no blank at its ends, and the
gap is missing if and only if the value is; and it holds the tag of that key and that value. The
other way round, the tag of a line that is put together from such parts has that key and that value,
whatever blanks stand around and between them. -/
theorem ofLine?_reads_parts (s : String) (number : Int) :
    (ofLine? s number = none ↔ trimmed s = "" ∨ (trimmed s).toList.head? ≠ some sigil) ∧
    (trimmed s ≠ "" → (trimmed s).toList.head? = some sigil →
      ∃ key gap value : String, Parts s.toList key.toList gap.toList value.toList ∧
        (∀ k g v : String, Parts s.toList k.toList g.toList v.toList →
          k = key ∧ g = gap ∧ v = value) ∧
        ofLine? s number = some ⟨key, value, number⟩) ∧
    ∀ pre key gap value post : String, (∀ c ∈ pre.toList, isBlank c = true) → IsKey key →
      (∀ c ∈ gap.toList, isBlank c = true) → IsTrimmed value.toList → (value ≠ "" → gap ≠ "") →
      (∀ c ∈ post.toList, isBlank c = true) →
      ofLine? (pre ++ "@" ++ key ++ gap ++ value ++ post) number = some ⟨key, value, number⟩ := by
  have absent : ofLine? s number = none ↔
      trimmed s = "" ∨ (trimmed s).toList.head? ≠ some sigil :=
    ofLine?_eq_none_iff.trans isPlain_iff
  refine ⟨absent, ?_, ?_⟩
  · intro nonempty head
    have present : ofLine? s number ≠ none := by
      rw [Ne, absent]
      rintro (empty | other)
      · exact nonempty empty
      · exact other head
    obtain ⟨t, found⟩ := Option.ne_none_iff_exists'.mp present
    obtain ⟨key, gap, value, parts, rfl⟩ := exists_parts found
    refine ⟨.ofList key, .ofList gap, .ofList value, by simpa using parts, ?_, found⟩
    intro k g v others
    obtain ⟨hk, hg, hv⟩ := parts.unique others
    exact ⟨by rw [← hk, String.ofList_toList], by rw [← hg, String.ofList_toList],
      by rw [← hv, String.ofList_toList]⟩
  · intro pre key gap value post before solid blank ends apart after
    have whole : (pre ++ "@" ++ key ++ gap ++ value ++ post).toList =
        pre.toList ++ (sigil :: (key.toList ++ (gap.toList ++ (value.toList ++ post.toList)))) := by
      simp [sigil]
    have missing : gap.toList = [] → value.toList = [] := by
      intro hgap
      by_cases hvalue : value = ""
      · rw [hvalue]
        rfl
      · exact absurd (String.toList_eq_nil_iff.mp hgap) (apart hvalue)
    have read := ofLine?_written whole before after solid blank ends missing number
    simpa using read

/-- The sigil is a part of the key where it stands again, a wide space ends the key, and the blanks
inside the value stay. -/
theorem ofLine?_reads_parts_wide_space :
    trimmed "\t@@k\u2003 a\tb \u0085" ≠ "" ∧
    (∃ gap : String,
      Parts "\t@@k\u2003 a\tb \u0085".toList "@k".toList gap.toList "a\tb".toList) ∧
    ofLine? "\t@@k\u2003 a\tb \u0085" 7 = some ⟨"@k", "a\tb", 7⟩ ∧
    ofLine? "  k @form A" 8 = none := by
  obtain ⟨-, parts, written⟩ := ofLine?_reads_parts "\t@@k\u2003 a\tb \u0085" 7
  have before : ∀ c ∈ "\t".toList, isBlank c = true := List.all_eq_true.mp (by decide)
  have between : ∀ c ∈ "\u2003 ".toList, isBlank c = true := List.all_eq_true.mp (by decide)
  have after : ∀ c ∈ " \u0085".toList, isBlank c = true := List.all_eq_true.mp (by decide)
  have read := written "\t" "@k" "\u2003 " "a\tb" " \u0085" before (by decide) between (by decide)
    (by decide) after
  have nonempty : trimmed "\t@@k\u2003 a\tb \u0085" ≠ "" := by decide +kernel
  obtain ⟨key, gap, value, here, -, same⟩ := parts nonempty (by decide +kernel)
  obtain ⟨rfl, rfl⟩ : key = "@k" ∧ value = "a\tb" := by
    have both := Option.some.inj (same.symm.trans read)
    exact ⟨congrArg Tag.key both, congrArg Tag.value both⟩
  exact ⟨nonempty, ⟨gap, here⟩, same,
    (ofLine?_reads_parts "  k @form A" 8).1.mpr (Or.inr (by decide +kernel))⟩

end TagOutline.Tag
