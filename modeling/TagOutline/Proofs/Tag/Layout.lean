import TagOutline.Proofs.Tag.Line

/-!
# The layout of tag lines

A tag line as it is written, with the blanks in front of the sigil, between key and value, and at
the end. The tag does not depend on these blanks, a line that is no tag line stays one whatever
blanks are put around it, and a key is changed where it stands, with all else left alone.
-/

namespace TagOutline

namespace Text

variable {pre core post : List Char}

/-- Blanks around a text do not show once it is trimmed. -/
theorem trim_append (before : ∀ c ∈ pre, isBlank c = true) (after : ∀ c ∈ post, isBlank c = true) :
    trim (pre ++ (core ++ post)) = trim core := by
  obtain ⟨a, b, hfirst, hlast, whole⟩ := exists_trim core
  have regrouped : pre ++ (core ++ post) = (pre ++ a) ++ (trim core ++ (b ++ post)) :=
    calc pre ++ (core ++ post) = pre ++ ((a ++ (trim core ++ b)) ++ post) := by rw [← whole]
      _ = (pre ++ a) ++ (trim core ++ (b ++ post)) := by simp
  rw [regrouped]
  apply trim_eq _ (isTrimmed_trim core)
  · exact fun c hc => (List.mem_append.mp hc).elim (hlast c) (after c)
  · exact fun c hc => (List.mem_append.mp hc).elim (before c) (hfirst c)

/-- A text is trimmed to nothing, or to a text with the first character that is not blank. -/
theorem head?_trim (cs : List Char) : (trim cs).head? = (trimStart cs).head? := by
  obtain ⟨post, blank, whole, -⟩ := exists_trimEnd (trimStart cs)
  cases hcore : trim cs with
  | cons c core =>
    rw [trim] at hcore
    rw [whole, hcore]
    rfl
  | nil =>
    cases hstart : trimStart cs with
    | nil => rfl
    | cons c rest =>
      rw [trim] at hcore
      rw [hcore, List.nil_append] at whole
      have hblank : isBlank c = true := blank c (by rw [← whole, hstart]; simp)
      have hfirst := List.head?_dropWhile_not isBlank cs
      rw [trimStart] at hstart
      simp [hstart, hblank] at hfirst

end Text

namespace Tag

open Text

/-- A tag line with all its blanks. -/
structure Laid (line pre key gap value post : List Char) : Prop where
  whole : line = pre ++ (sigil :: (key ++ (gap ++ (value ++ post))))
  before : ∀ c ∈ pre, isBlank c = true
  solid : ∀ c ∈ key, isBlank c = false
  blank : ∀ c ∈ gap, isBlank c = true
  trimmed : IsTrimmed value
  apart : gap = [] → value = []
  after : ∀ c ∈ post, isBlank c = true

variable {s : String} {line : Int} {t : Tag} {pre key gap value post : List Char}

/-- A tag line is read as its key and its value, whatever its blanks. -/
theorem Laid.ofLine? (h : Laid s.toList pre key gap value post) (line : Int) :
    Tag.ofLine? s line = some ⟨String.ofList key, String.ofList value, line⟩ :=
  ofLine?_written h.whole h.before h.after h.solid h.blank h.trimmed h.apart line

/-- Every tag line has its layout. -/
theorem exists_laid (h : ofLine? s line = some t) :
    ∃ pre key gap value post, Laid s.toList pre key gap value post ∧
      t = ⟨String.ofList key, String.ofList value, line⟩ := by
  obtain ⟨key, gap, value, parts, ht⟩ := exists_parts h
  obtain ⟨pre, post, before, after, whole⟩ := exists_trim s.toList
  refine ⟨pre, key, gap, value, post, ?_, ht⟩
  refine ⟨?_, before, parts.solid, parts.blank, parts.trimmed, parts.apart.mp, after⟩
  rw [parts.whole] at whole
  rw [whole]
  simp

/-- A line that is no tag line: there is nothing on it, or it does not start with the sigil. -/
def IsPlain (line : String) : Prop :=
  (trim line.toList).head? ≠ some sigil

instance : DecidablePred IsPlain :=
  fun line => inferInstanceAs (Decidable ((trim line.toList).head? ≠ some sigil))

/-- A line is a tag line if its first character that is not blank is the sigil. -/
theorem ofLine?_eq_none_iff : ofLine? s line = none ↔ IsPlain s := by
  unfold ofLine? IsPlain
  split
  next rest hline => simp [hline, sigil]
  next hline =>
    constructor
    · intro _ hfirst
      obtain ⟨rest, hrest⟩ := List.head?_eq_some_iff.mp hfirst
      exact hline rest hrest
    · intro _
      rfl

/-! Changing blanks. -/

/-- The same line with other blanks, around it or between the key and the value of its tag. -/
inductive Relaid (old new : String) : Prop where
  | around {pre core post pre' post' : List Char}
      (whole : old.toList = pre ++ (core ++ post)) (whole' : new.toList = pre' ++ (core ++ post'))
      (before : ∀ c ∈ pre, isBlank c = true) (after : ∀ c ∈ post, isBlank c = true)
      (before' : ∀ c ∈ pre', isBlank c = true) (after' : ∀ c ∈ post', isBlank c = true)
  | between {pre key gap gap' value post : List Char}
      (laid : Laid old.toList pre key gap value post) (laid' : Laid new.toList pre key gap' value post)
      (apart : gap ≠ []) (apart' : gap' ≠ [])

/-- A line with other blanks is read as the same tag, or is still no tag line. -/
theorem Relaid.ofLine? {old new : String} (h : Relaid old new) (line : Int) :
    Tag.ofLine? new line = Tag.ofLine? old line := by
  cases h with
  | around whole whole' before after before' after' =>
    have trimmed : trim new.toList = trim old.toList := by
      rw [whole, whole', trim_append before after, trim_append before' after']
    simp only [Tag.ofLine?, trimmed]
  | between laid laid' _ _ => rw [laid.ofLine?, laid'.ofLine?]

/-! Changing keys. -/

/-- A line with the key of its tag changed and all else as it is. A line that is no tag line stays
as a whole. -/
def withKey (f : String → String) (line : String) : String :=
  match trimStart line.toList with
  | '@' :: rest =>
    String.ofList (line.toList.takeWhile isBlank ++ (sigil ::
      ((f (String.ofList (rest.takeWhile isKeyChar))).toList ++ rest.dropWhile isKeyChar)))
  | _ => line

theorem withKey_of_none (f : String → String) (h : ofLine? s line = none) : withKey f s = s := by
  rw [ofLine?_eq_none_iff, IsPlain, head?_trim] at h
  unfold withKey
  split
  next rest hstart => simp [hstart, sigil] at h
  next => rfl

/-- What follows the key of a tag line starts with a blank, or there is nothing. -/
theorem Laid.isBlank_head (h : Laid s.toList pre key gap value post) :
    ∀ c ∈ (gap ++ (value ++ post)).head?, isBlank c = true := by
  intro c hc
  cases gap with
  | cons d gap =>
    have hd : d = c := by simpa using hc
    exact hd ▸ h.blank d (by simp)
  | nil =>
    rw [h.apart rfl] at hc
    exact h.after c (List.mem_of_head? hc)

theorem Laid.withKey (h : Laid s.toList pre key gap value post) (f : String → String) :
    (withKey f s).toList =
      pre ++ (sigil :: ((f (String.ofList key)).toList ++ (gap ++ (value ++ post)))) := by
  have stop : ¬ isBlank sigil = true := by decide
  have start : trimStart s.toList = sigil :: (key ++ (gap ++ (value ++ post))) := by
    rw [h.whole, trimStart, List.dropWhile_append_of_pos h.before]
    exact List.dropWhile_cons_of_neg stop
  have blanks : s.toList.takeWhile isBlank = pre := by
    rw [h.whole, List.takeWhile_append_of_pos h.before, List.takeWhile_cons_of_neg stop,
      List.append_nil]
  rw [sigil] at start
  simp only [Tag.withKey, start, blanks, takeWhile_isKeyChar h.solid h.isBlank_head,
    dropWhile_isKeyChar h.solid h.isBlank_head, String.toList_ofList]

variable {f : String → String} (keys : ∀ k, IsKey k → IsKey (f k))
include keys

/-- A line whose key is changed is read with the changed key. -/
theorem ofLine?_withKey (s : String) (line : Int) :
    ofLine? (withKey f s) line = (ofLine? s line).map fun t => { t with key := f t.key } := by
  cases h : ofLine? s line with
  | none =>
    rw [withKey_of_none f h, h]
    rfl
  | some t =>
    obtain ⟨pre, key, gap, value, post, laid, rfl⟩ := exists_laid h
    have solid : IsKey (f (String.ofList key)) := by
      apply keys
      intro c hc
      exact laid.solid c (by simpa using hc)
    have changed : Laid (withKey f s).toList pre (f (String.ofList key)).toList gap value post :=
      { laid with whole := laid.withKey f, solid := solid }
    rw [changed.ofLine? line]
    simp

theorem newline_notMem_withKey {s : String} (h : '\n' ∉ s.toList) :
    '\n' ∉ (withKey f s).toList := by
  cases hread : ofLine? s 0 with
  | none => rwa [withKey_of_none f hread]
  | some t =>
    obtain ⟨pre, key, gap, value, post, laid, -⟩ := exists_laid hread
    have solid : IsKey (f (String.ofList key)) := by
      apply keys
      intro c hc
      exact laid.solid c (by simpa using hc)
    have hkey : '\n' ∉ (f (String.ofList key)).toList :=
      fun hmem => absurd (solid '\n' hmem) (by decide)
    rw [laid.whole] at h
    rw [laid.withKey]
    simp only [List.mem_append, List.mem_cons, not_or] at h ⊢
    exact ⟨h.1, h.2.1, hkey, h.2.2.2⟩

end Tag

end TagOutline
