import Mathlib.Data.List.TakeWhile
import TagOutline.Script.Scanner

/-!
# Scanning comments and strings

How far comments and strings reach, and what is read where a statement may begin: a comment, which
leaves the scanner as it was, a string in quotes, a semicolon, which begins the next statement, or
the end of a line.
-/

namespace TagOutline.Script

/-! Lengths. -/

/-- A block comment reaches to its first closing mark. -/
theorem blockLength?_of_open {cs : List Char} (h : ¬ ['*', '/'] <:+: cs) (rest : List Char) :
    blockLength? (cs ++ '*' :: '/' :: rest) = some (cs.length + 2) := by
  induction cs with
  | nil => rfl
  | cons c cs ih =>
    have others : ¬ ['*', '/'] <:+: cs := fun hcs => h (List.infix_cons hcs)
    -- No closing mark begins here: what follows a last star is the star of the mark behind it.
    have closed : ∀ ds, c = '*' → cs ++ '*' :: '/' :: rest ≠ '/' :: ds := by
      intro ds hc hd
      cases cs with
      | nil => cases hd
      | cons d es =>
        have hslash : d = '/' := (List.cons.inj hd).1
        exact h ⟨[], es, by rw [hc, hslash]; rfl⟩
    rw [List.cons_append, blockLength?, ih others]
    · rfl
    · exact closed

/-- A line comment reaches to the end of its line. -/
theorem lineLength_of_ends {cs rest : List Char} (inside : ∀ c ∈ cs, endsLine c = false)
    (ends : ∀ c ∈ rest.head?, endsLine c = true) : lineLength (cs ++ rest) = cs.length := by
  rw [lineLength, List.takeWhile_append_of_pos (by simpa using inside)]
  cases rest with
  | nil => simp
  | cons c rest => simp [ends c rfl]

theorem stringLength_cons {c : Char} (hc : c ≠ '\\') (quote : Char) (cs : List Char) :
    stringLength quote (c :: cs) =
      if c = quote then 1 else if c = '\n' ∨ c = '\r' then 0 else stringLength quote cs + 1 := by
  rw [stringLength]
  · exact fun h => absurd h hc
  · exact fun ds h => absurd h hc
  · exact fun d ds h => absurd h hc

/-- A string reaches to its closing quote. -/
theorem stringLength_of_plain {quote : Char} {cs : List Char} (hquote : quote ≠ '\\')
    (plain : ∀ c ∈ cs, c ≠ quote ∧ c ≠ '\\' ∧ c ≠ '\n' ∧ c ≠ '\r') (rest : List Char) :
    stringLength quote (cs ++ quote :: rest) = cs.length + 1 := by
  induction cs with
  | nil =>
    rw [List.nil_append, stringLength_cons hquote, if_pos rfl]
    rfl
  | cons c cs ih =>
    obtain ⟨open_, backslash, feed, carriage⟩ := plain c (by simp)
    rw [List.cons_append, stringLength_cons backslash, if_neg open_,
      if_neg (by simp [feed, carriage]), ih fun d hd => plain d (by simp [hd])]
    rfl

/-! Readings. -/

variable {s : ScanState} {rest : List Char}

/-- A lexeme is cut off, and what follows it is scanned from the state after it. -/
theorem lexemesFrom_of_read {c : Char} {more : List Char} {kind : Option CommentKind}
    {next : ScanState} (h : read s c (more ++ rest) = ⟨kind, more.length, next⟩) :
    lexemesFrom s (c :: (more ++ rest)) = ⟨kind, c :: more⟩ :: lexemesFrom next rest := by
  rw [lexemesFrom, h, List.take_left, List.drop_left]

theorem read_blockComment (h : s.allowsComments = true) {cs : List Char}
    (closed : ¬ ['*', '/'] <:+: cs) (rest : List Char) :
    read s '/' ('*' :: (cs ++ '*' :: '/' :: rest)) = ⟨some .block, cs.length + 3, s⟩ := by
  simp only [read, h, if_true, comment?, blockLength?_of_open closed rest, Option.map_some]

theorem read_lineComment (h : s.allowsComments = true) {cs : List Char}
    (inside : ∀ c ∈ cs, endsLine c = false) (ends : ∀ c ∈ rest.head?, endsLine c = true) :
    read s '/' ('/' :: (cs ++ rest)) = ⟨some .line, cs.length + 1, s⟩ := by
  simp only [read, h, if_true, comment?, lineLength_of_ends inside ends]

/-- A place where nothing is open and a statement may begin. -/
structure AtStatement (s : ScanState) : Prop where
  contexts : s.contexts = []
  expects : s.expects = .statement

theorem AtStatement.allowsComments (h : AtStatement s) : s.allowsComments = true := by
  rw [ScanState.allowsComments, h.contexts]

/-- Outside of all contexts, what is no comment is read as a part of the program. -/
theorem read_of_ne_slash (h : s.contexts = []) {c : Char} (hc : c ≠ '/') (rest : List Char) :
    read s c rest = readProgram s c rest := by
  have none : comment? c rest = none := by
    rw [comment?]
    · exact fun ds hslash => absurd hslash hc
    · exact fun ds hslash => absurd hslash hc
  rw [read, none, ite_self, readOther, h]

theorem before_of_ne_sign {c : Char} (plus : c ≠ '+') (minus : c ≠ '-') (rest : List Char) :
    s.before c rest = s := by
  rw [ScanState.before, if_neg]
  rintro ⟨-, -, sign, -⟩
  rcases sign with hc | hc
  · exact plus hc
  · exact minus hc

theorem read_string (h : AtStatement s) {cs : List Char}
    (plain : ∀ c ∈ cs, c ≠ '"' ∧ c ≠ '\\' ∧ c ≠ '\n' ∧ c ≠ '\r') (rest : List Char) :
    read s '"' (cs ++ '"' :: rest) = ⟨none, cs.length + 1, s.after .operator⟩ := by
  have gap : isGap '"' = false := by decide
  rw [read_of_ne_slash h.contexts (by decide), readProgram,
    before_of_ne_sign (by decide) (by decide)]
  simp [gap, startsMarkupComment, stringLength_of_plain (by decide) plain]

theorem read_semicolon (h : s.contexts = []) (rest : List Char) :
    read s ';' rest = ⟨none, 0, { s.after .statement with bodyAhead := false }⟩ := by
  have gap : isGap ';' = false := by decide
  have digit : ';'.isDigit = false := by decide
  have word : isWordChar ';' = false := by decide
  have choice : s.withoutChoice = s := by
    have none : s.contexts.dropWhile (· = .choice) = s.contexts := by rw [h, List.dropWhile_nil]
    rw [ScanState.withoutChoice, none]
  rw [read_of_ne_slash h (by decide), readProgram, before_of_ne_sign (by decide) (by decide)]
  simp [gap, digit, word, startsMarkupComment, startsFraction, readMark, choice]

theorem read_lineFeed (h : s.contexts = []) (rest : List Char) :
    read s '\n' rest = ⟨none, 0, s.afterGap '\n'⟩ := by
  have gap : isGap '\n' = true := by decide
  rw [read_of_ne_slash h (by decide), readProgram, before_of_ne_sign (by decide) (by decide)]
  simp [gap]

end TagOutline.Script
