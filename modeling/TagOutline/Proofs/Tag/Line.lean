import TagOutline.Tag.Line
import TagOutline.Proofs.Text.Blank

/-!
# The grammar of tag lines

A line is a tag line exactly if its trimmed text is the sigil, a key without blanks, a blank gap and
a value that is trimmed, where the gap is missing if and only if the value is. The tag on it
consists of that key and that value. A line that is put together from such parts is therefore read
back.
-/

namespace TagOutline.Tag

open Text

/-- The trimmed line is a sigil, a key, a gap and a value. -/
structure Parts (line key gap value : List Char) : Prop where
  whole : trim line = sigil :: (key ++ (gap ++ value))
  solid : ∀ c ∈ key, isBlank c = false
  blank : ∀ c ∈ gap, isBlank c = true
  trimmed : IsTrimmed value
  apart : gap = [] ↔ value = []

section Key

variable {key rest : List Char} (solid : ∀ c ∈ key, isBlank c = false)
  (stop : ∀ c ∈ rest.head?, isBlank c = true)
include solid stop

/-- A key goes up to the first blank. -/
theorem takeWhile_isKeyChar : (key ++ rest).takeWhile isKeyChar = key := by
  have hkey : ∀ c ∈ key, isKeyChar c = true := fun c hc => by simp [isKeyChar, solid c hc]
  rw [List.takeWhile_append_of_pos hkey]
  cases rest with
  | nil => simp
  | cons c rest =>
    have hc : ¬ isKeyChar c = true := by simp [isKeyChar, stop c rfl]
    rw [List.takeWhile_cons_of_neg hc, List.append_nil]

theorem dropWhile_isKeyChar : (key ++ rest).dropWhile isKeyChar = rest := by
  have hkey : ∀ c ∈ key, isKeyChar c = true := fun c hc => by simp [isKeyChar, solid c hc]
  rw [List.dropWhile_append_of_pos hkey]
  cases rest with
  | nil => rfl
  | cons c rest => exact List.dropWhile_cons_of_neg (by simp [isKeyChar, stop c rfl])

end Key

/-- What follows the key starts with a blank, or there is nothing. -/
theorem Parts.isBlank_head {line key gap value : List Char} (h : Parts line key gap value) :
    ∀ c ∈ (gap ++ value).head?, isBlank c = true := by
  intro c hc
  cases gap with
  | nil =>
    have hvalue : value = [] := h.apart.mp rfl
    simp [hvalue] at hc
  | cons d gap =>
    have hd : d = c := by simpa using hc
    exact hd ▸ h.blank d (by simp)

/-- The key and the value of a tag line are the parts of these names. -/
theorem ofLine?_of_parts {s : String} {key gap value : List Char}
    (h : Parts s.toList key gap value) (line : Int) :
    ofLine? s line = some ⟨String.ofList key, String.ofList value, line⟩ := by
  have hvalue : trim (gap ++ value) = value := by
    simpa using @trim_eq gap value [] h.blank h.trimmed (by simp)
  simp only [ofLine?, h.whole, sigil, takeWhile_isKeyChar h.solid h.isBlank_head,
    dropWhile_isKeyChar h.solid h.isBlank_head, hvalue]

/-- What follows the key in a trimmed line is a blank gap and the trimmed rest. Neither is there
without the other, for the line ends with no blank. -/
theorem exists_gap (rest : List Char) (last : ∀ c ∈ rest.getLast?, isBlank c = false)
    (first : ∀ c ∈ rest.head?, isBlank c = true) :
    ∃ gap, rest = gap ++ trim rest ∧ (∀ c ∈ gap, isBlank c = true) ∧
      (gap = [] ↔ trim rest = []) := by
  obtain ⟨gap, post, hgap, hpost, whole⟩ := exists_trim rest
  have nothingAfter : post = [] := by
    apply eq_nil_of_blank hpost
    intro c hc
    apply last
    rw [whole, ← List.append_assoc, List.getLast?_append, Option.mem_def.mp hc]
    rfl
  rw [nothingAfter, List.append_nil] at whole
  refine ⟨gap, whole, hgap, ?_, ?_⟩
  · intro hnil
    cases hvalue : trim rest with
    | nil => rfl
    | cons c value =>
      have blank : isBlank c = true := first c (by rw [whole, hnil, hvalue]; rfl)
      rw [(isTrimmed_trim rest).head c (by rw [hvalue]; rfl)] at blank
      cases blank
  · intro hnil
    apply eq_nil_of_blank hgap
    rw [hnil, List.append_nil] at whole
    rw [← whole]
    exact last

/-- Every tag line has its parts. -/
theorem exists_parts {s : String} {line : Int} {t : Tag} (h : ofLine? s line = some t) :
    ∃ key gap value, Parts s.toList key gap value ∧
      t = ⟨String.ofList key, String.ofList value, line⟩ := by
  unfold ofLine? at h
  split at h
  next rest hline =>
    have trimmed : IsTrimmed ('@' :: rest) := hline ▸ isTrimmed_trim s.toList
    have cut : rest.takeWhile isKeyChar ++ rest.dropWhile isKeyChar = rest :=
      List.takeWhile_append_dropWhile
    have last : ∀ c ∈ (rest.dropWhile isKeyChar).getLast?, isBlank c = false := by
      intro c hc
      apply trimmed.last
      rw [← cut, List.getLast?_cons, List.getLast?_append, Option.mem_def.mp hc]
      rfl
    have first : ∀ c ∈ (rest.dropWhile isKeyChar).head?, isBlank c = true := by
      intro c hc
      have hfirst := List.head?_dropWhile_not isKeyChar rest
      rw [Option.mem_def.mp hc] at hfirst
      simpa [isKeyChar] using hfirst
    obtain ⟨gap, whole, hgap, apart⟩ := exists_gap (rest.dropWhile isKeyChar) last first
    refine ⟨rest.takeWhile isKeyChar, gap, trim (rest.dropWhile isKeyChar), ?_, ?_⟩
    · refine ⟨?_, ?_, hgap, isTrimmed_trim _, apart⟩
      · rw [hline, ← whole, cut, sigil]
      · intro c hc
        have hkey := List.all_eq_true.mp List.all_takeWhile c hc
        simpa [isKeyChar] using hkey
    · exact (Option.some.inj h).symm
  next => cases h

/-- A key that ends the line, or a value behind it, ends the line with no blank. -/
theorem isTrimmed_sigil {key gap value : List Char} (solid : ∀ c ∈ key, isBlank c = false)
    (trimmed : IsTrimmed value) (apart : value = [] → gap = []) :
    IsTrimmed (sigil :: (key ++ (gap ++ value))) := by
  refine ⟨?_, ?_⟩
  · intro c hc
    have hsigil : sigil = c := by simpa using hc
    rw [← hsigil]
    decide
  · intro c hc
    cases hvalue : value.getLast? with
    | some d =>
      have hd : d = c := by simpa [List.getLast?_cons, List.getLast?_append, hvalue] using hc
      exact trimmed.last c (by rw [hvalue, hd]; rfl)
    | none =>
      have hnil : value = [] := List.getLast?_eq_none_iff.mp hvalue
      rw [apart hnil, hnil, List.append_nil, List.append_nil] at hc
      rcases List.mem_cons.mp (List.mem_of_getLast? (Option.mem_def.mp hc)) with rfl | hkey
      · decide
      · exact solid c hkey

/-- The tag on a line does not depend on the blanks that its parts are set with. -/
theorem ofLine?_written {s : String} {pre key gap value post : List Char}
    (whole : s.toList = pre ++ (sigil :: (key ++ (gap ++ (value ++ post)))))
    (before : ∀ c ∈ pre, isBlank c = true) (after : ∀ c ∈ post, isBlank c = true)
    (solid : ∀ c ∈ key, isBlank c = false) (blank : ∀ c ∈ gap, isBlank c = true)
    (trimmed : IsTrimmed value) (apart : gap = [] → value = []) (line : Int) :
    ofLine? s line = some ⟨String.ofList key, String.ofList value, line⟩ := by
  by_cases hvalue : value = []
  · -- without a value the gap is a part of the blanks at the end
    subst hvalue
    have hparts : Parts s.toList key [] [] := by
      refine ⟨?_, solid, by simp, isTrimmed_nil, by simp⟩
      have hcore := @isTrimmed_sigil key [] [] solid isTrimmed_nil fun _ => rfl
      have hpost : ∀ c ∈ gap ++ post, isBlank c = true := by
        intro c hc
        rcases List.mem_append.mp hc with hc | hc
        · exact blank c hc
        · exact after c hc
      simpa [whole] using trim_eq before hcore hpost
    exact ofLine?_of_parts hparts line
  · have hparts : Parts s.toList key gap value := by
      refine ⟨?_, solid, blank, trimmed, ⟨apart, fun h => absurd h hvalue⟩⟩
      have hcore := @isTrimmed_sigil key gap value solid trimmed fun h => absurd h hvalue
      simpa [whole] using trim_eq before hcore after
    exact ofLine?_of_parts hparts line

/-- A text that can stand as a key: it has no blank. -/
def IsKey (s : String) : Prop :=
  ∀ c ∈ s.toList, isBlank c = false

/-- A text that can stand as a value: it has no line feed and no blank at its ends. -/
structure IsValue (s : String) : Prop where
  oneLine : '\n' ∉ s.toList
  trimmed : IsTrimmed s.toList

instance (s : String) : Decidable (IsKey s) :=
  decidable_of_iff ((s.toList.all fun c => !isBlank c) = true) <| by
    simp only [List.all_eq_true, Bool.not_eq_true']
    rfl

instance (s : String) : Decidable (IsValue s) :=
  decidable_of_iff ('\n' ∉ s.toList ∧ IsTrimmed s.toList)
    ⟨fun h => ⟨h.1, h.2⟩, fun h => ⟨h.oneLine, h.trimmed⟩⟩

theorem isKey_key {s : String} {line : Int} {t : Tag} (h : ofLine? s line = some t) :
    IsKey t.key := by
  obtain ⟨key, gap, value, parts, rfl⟩ := exists_parts h
  intro c hc
  exact parts.solid c (by simpa using hc)

/-- The tag on a line that has no line feed has a value of one line. -/
theorem isValue_value {s : String} {line : Int} {t : Tag} (h : ofLine? s line = some t)
    (oneLine : '\n' ∉ s.toList) : IsValue t.value := by
  obtain ⟨key, gap, value, parts, rfl⟩ := exists_parts h
  refine ⟨?_, by simpa using parts.trimmed⟩
  intro hmem
  have hvalue : '\n' ∈ value := by simpa using hmem
  apply oneLine
  apply mem_of_mem_trim
  rw [parts.whole]
  simp [hvalue]

/-- A tag line starts with the sigil once it is trimmed. -/
theorem exists_trimmed_eq_sigil {s : String} {line : Int} {t : Tag} (h : ofLine? s line = some t) :
    ∃ rest, (Text.trimmed s).toList = sigil :: rest := by
  obtain ⟨key, gap, value, parts, -⟩ := exists_parts h
  refine ⟨key ++ (gap ++ value), ?_⟩
  rw [Text.trimmed, String.toList_ofList, parts.whole]

theorem line_eq {s : String} {line : Int} {t : Tag} (h : ofLine? s line = some t) :
    t.line = line := by
  obtain ⟨key, gap, value, -, rfl⟩ := exists_parts h
  rfl

/-- The number of a line is told in its tag. -/
theorem ofLine?_add (s : String) (line d : Int) :
    ofLine? s (line + d) = (ofLine? s line).map fun t => { t with line := t.line + d } := by
  unfold ofLine?
  split <;> rfl

/-- The line that a key and a value are written to. -/
def lineOf (key value : String) : String :=
  "@" ++ key ++ " " ++ value

theorem toList_lineOf (key value : String) :
    (lineOf key value).toList = sigil :: (key.toList ++ ' ' :: value.toList) := by
  simp [lineOf, sigil]

/-- A key and a value are read back from their line. -/
theorem ofLine?_lineOf {key value : String} (hkey : IsKey key) (hvalue : IsValue value) (line : Int) :
    ofLine? (lineOf key value) line = some ⟨key, value, line⟩ := by
  have whole : (lineOf key value).toList =
      [] ++ (sigil :: (key.toList ++ ([' '] ++ (value.toList ++ [])))) := by
    rw [toList_lineOf]
    simp
  have blank : ∀ c ∈ [' '], isBlank c = true := by
    intro c hc
    rw [List.mem_singleton.mp hc]
    decide
  have hread := ofLine?_written whole (by simp) (by simp) hkey blank hvalue.trimmed (by simp) line
  simpa using hread

theorem newline_notMem_lineOf {key value : String} (hkey : IsKey key) (hvalue : IsValue value) :
    '\n' ∉ (lineOf key value).toList := by
  have hk : '\n' ∉ key.toList := fun h => absurd (hkey '\n' h) (by decide)
  rw [toList_lineOf]
  simp [sigil, hk, hvalue.oneLine]

theorem lineOf_ne_empty (key value : String) : lineOf key value ≠ "" := by
  intro h
  have hlist := congrArg String.toList h
  rw [toList_lineOf] at hlist
  simp at hlist

end TagOutline.Tag
