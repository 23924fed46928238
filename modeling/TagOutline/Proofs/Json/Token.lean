import Mathlib.Data.List.TakeWhile
import TagOutline.Json.Reader
import TagOutline.Json.Writer

/-!
# JSON strings and numbers

The tokens that the writer puts down are read back by the reader, whatever stands behind them: a
string with its escapes, and the decimal text of an integer as long as what follows cannot go on
with the number.
-/

namespace TagOutline.Json

/-! Strings. -/

theorem hexDigits_of_control : ∀ n < 0x20,
    Text.hexDigits 4 n = ['0', '0', Nat.digitChar (n / 16), Nat.digitChar (n % 16)] ∧
      hexUnit? '0' '0' (Nat.digitChar (n / 16)) (Nat.digitChar (n % 16)) = some n := by
  decide

/-- The escape of a control character stands for it. -/
theorem unicodeEscape_hexDigits {c : Char} (low : c.toNat < 0x20) {rest : List Char}
    (more : rest ≠ []) :
    unicodeEscape (Text.hexDigits 4 c.toNat ++ rest) = .ok (c, 4) := by
  obtain ⟨digits, unit⟩ := hexDigits_of_control c.toNat low
  have high : isHighUnit c.toNat = false := by
    simp only [isHighUnit, Bool.and_eq_false_iff, decide_eq_false_iff_not]
    omega
  have plain : unitChar c.toNat = c := by
    have hlow : isLowUnit c.toNat = false := by
      simp only [isLowUnit, Bool.and_eq_false_iff, decide_eq_false_iff_not]
      omega
    simp [unitChar, high, hlow]
  obtain ⟨d, ds, rfl⟩ := List.exists_cons_of_ne_nil more
  rw [digits]
  simp only [List.cons_append, List.nil_append, unicodeEscape, unit, high, plain]
  split <;> simp

/-- One character is read back, whatever is read behind it. -/
theorem string_escapeChar {opening : Nat} {c : Char} {rest cs after : List Char}
    (h : string opening rest = .ok (cs, after)) :
    string opening (escapeChar c ++ rest) = .ok (c :: cs, after) := by
  have more : rest ≠ [] := by
    intro hnil
    rw [hnil, string] at h
    cases h
  unfold escapeChar
  split_ifs with quote backslash feed ret tab back form low
  · simp [string, escaped?, h, quote]
  · simp [string, escaped?, h, backslash]
  · simp [string, escaped?, h, feed]
  · simp [string, escaped?, h, ret]
  · simp [string, escaped?, h, tab]
  · simp [string, escaped?, h, back]
  · simp [string, escaped?, h, form]
  · have escape := unicodeEscape_hexDigits low more
    rw [List.cons_append, List.cons_append, string, escape, (hexDigits_of_control c.toNat low).1]
    simp [h]
  · rw [List.singleton_append, string.eq_def]
    simp [backslash, low, h]

/-- The characters of a string are read back up to the closing quote. -/
theorem string_flatMap_escapeChar (opening : Nat) (cs rest : List Char) :
    string opening (cs.flatMap escapeChar ++ '"' :: rest) = .ok (cs, rest) := by
  induction cs with
  | nil => simp [string]
  | cons c cs ih =>
    rw [List.flatMap_cons, List.append_assoc]
    exact string_escapeChar ih

/-! Numbers. -/

theorem ne_of_isDigit {c d : Char} (hc : c.isDigit = false) (hd : d.isDigit = true) : c ≠ d := by
  rintro rfl
  rw [hd] at hc
  cases hc

theorem isDigit_of_mem_toDigits {n : Nat} {c : Char} (h : c ∈ Nat.toDigits 10 n) :
    c.isDigit = true :=
  Nat.isDigit_of_mem_toDigits (by decide) (by decide) h

/-- The digits of a number are read as the number. -/
theorem digitsValue_toDigits (n : Nat) : digitsValue (Nat.toDigits 10 n) = n :=
  Nat.ofDigitChars_toDigits (by decide) (by decide)

/-- Only zero is written with a zero in front. -/
theorem head?_toDigits_ne_zero {n : Nat} (pos : 0 < n) :
    ∀ c ∈ (Nat.toDigits 10 n).head?, c ≠ '0' := by
  induction n using Nat.strongRecOn with
  | ind n ih =>
    intro c hc
    rw [Nat.toDigits_eq_if (by decide)] at hc
    split at hc
    · have small : ∀ m < 10, 0 < m → Nat.digitChar m ≠ '0' := by decide
      have hdigit : n.digitChar = c := by simpa using hc
      rw [← hdigit]
      exact small n ‹n < 10› pos
    · have front : 0 < n / 10 := by omega
      rw [List.head?_append, List.head?_eq_some_head Nat.toDigits_ne_nil, Option.some_or,
        ← List.head?_eq_some_head] at hc
      exact ih (n / 10) (by omega) front c hc

/-- What cannot go on with an integer: no digit, no point and no mark of an exponent. -/
def EndsNumber (rest : List Char) : Prop :=
  ∀ c ∈ rest.head?, c.isDigit = false ∧ c ≠ '.' ∧ c ≠ 'e' ∧ c ≠ 'E'

theorem wholePart_toDigits (n : Nat) {rest : List Char} (ends : EndsNumber rest) :
    wholePart (Nat.toDigits 10 n ++ rest) = some (Nat.toDigits 10 n, rest) := by
  obtain ⟨d, ds, digits⟩ := List.exists_cons_of_ne_nil (Nat.toDigits_ne_nil (n := n) (b := 10))
  have hall : ∀ c ∈ ds, c.isDigit = true :=
    fun c hc => isDigit_of_mem_toDigits (n := n) (by simp [digits, hc])
  have hd : d.isDigit = true := isDigit_of_mem_toDigits (n := n) (by simp [digits])
  have stop : ∀ c ∈ rest.head?, ¬ c.isDigit = true := fun c hc => by simp [(ends c hc).1]
  have hrest : rest.takeWhile Char.isDigit = [] ∧ rest.dropWhile Char.isDigit = rest := by
    cases rest with
    | nil => exact ⟨rfl, rfl⟩
    | cons c cs => simp [stop c (by simp)]
  rcases Nat.eq_zero_or_pos n with rfl | pos
  · rfl
  · have hzero : d ≠ '0' := head?_toDigits_ne_zero pos d (by simp [digits])
    rw [digits, List.cons_append, wholePart.eq_def]
    simp only [hd, if_true, List.takeWhile_append_of_pos hall, List.dropWhile_append_of_pos hall,
      hrest.1, hrest.2, List.append_nil]

theorem fraction_of_ends {rest : List Char} (ends : EndsNumber rest) :
    fraction rest = ([], rest) := by
  unfold fraction
  split
  next d cs => exact absurd rfl (ends '.' (by simp)).2.1
  · rfl

theorem exponent_of_ends {rest : List Char} (ends : EndsNumber rest) :
    exponent rest = (none, rest) := by
  unfold exponent
  split
  next e cs =>
    have mark := (ends e (by simp)).2.2
    rw [if_neg (by simp [mark])]
  · rfl

/-- The digits of a number do not start with a sign. -/
theorem exists_toDigits (n : Nat) :
    ∃ d ds, Nat.toDigits 10 n = d :: ds ∧ d.isDigit = true ∧ d ≠ '-' := by
  obtain ⟨d, ds, digits⟩ := List.exists_cons_of_ne_nil (Nat.toDigits_ne_nil (n := n) (b := 10))
  have hd : d.isDigit = true := isDigit_of_mem_toDigits (n := n) (by simp [digits])
  exact ⟨d, ds, digits, hd, (ne_of_isDigit rfl hd).symm⟩

theorem numberValue_toDigits {n : Nat} (short : (Nat.toDigits 10 n).length ≤ maxDigits)
    (negative : Bool) :
    numberValue negative (Nat.toDigits 10 n) [] none = .ok (.int (if negative then -n else n)) := by
  simp only [numberValue, digitsValue_toDigits]
  rw [if_pos short]

theorem number_toDigits {n : Nat} (short : (Nat.toDigits 10 n).length ≤ maxDigits)
    {rest : List Char} (ends : EndsNumber rest) :
    number (Nat.toDigits 10 n ++ rest) = .ok (.int n, rest) := by
  have whole := wholePart_toDigits n ends
  obtain ⟨d, ds, digits, -, unsigned⟩ := exists_toDigits n
  rw [digits, List.cons_append] at whole ⊢
  unfold number
  split
  next negative cs sign =>
    split at sign
    next tail heq => exact absurd (List.cons.inj heq).1 unsigned
    · cases sign
      rw [whole]
      simp only [fraction_of_ends ends, exponent_of_ends ends, ← digits,
        numberValue_toDigits short]
      rfl

theorem number_minus_toDigits {n : Nat} (short : (Nat.toDigits 10 n).length ≤ maxDigits)
    {rest : List Char} (ends : EndsNumber rest) :
    number ('-' :: (Nat.toDigits 10 n ++ rest)) = .ok (.int (-n), rest) := by
  simp only [number, wholePart_toDigits n ends, fraction_of_ends ends, exponent_of_ends ends,
    numberValue_toDigits short]
  rfl

theorem decimal_of_nonneg {n : Int} (h : ¬ n < 0) :
    (decimal n).toList = Nat.toDigits 10 n.natAbs := by
  rw [decimal, if_neg h, String.toList_ofList]

theorem decimal_of_neg {n : Int} (h : n < 0) :
    (decimal n).toList = '-' :: Nat.toDigits 10 n.natAbs := by
  rw [decimal, if_pos h, String.toList_ofList]

/-- No word starts with a digit. -/
theorem word?_of_digit {d : Char} (h : d.isDigit = true) (cs : List Char) :
    word? (d :: cs) = none := by
  have apart : ∀ c : Char, c.isDigit = false → c ≠ d := fun c hc => ne_of_isDigit hc h
  simp [word?, afterWord?, apart 'n' rfl, apart 't' rfl, apart 'f' rfl, apart 'N' rfl,
    apart 'I' rfl, apart '-' rfl]

theorem word?_of_minus {d : Char} (h : d.isDigit = true) (cs : List Char) :
    word? ('-' :: d :: cs) = none := by
  simp [word?, afterWord?, ne_of_isDigit (c := 'I') rfl h]

/-- An integer is read back up to where it ends. -/
theorem atom_decimal {n : Int} (short : (Nat.toDigits 10 n.natAbs).length ≤ maxDigits)
    {rest : List Char} (ends : EndsNumber rest) :
    atom ((decimal n).toList ++ rest) = .ok (.int n, rest) := by
  obtain ⟨d, ds, digits, hd, -⟩ := exists_toDigits n.natAbs
  by_cases h : n < 0
  · have hn : -(n.natAbs : Int) = n := by omega
    have hnumber := number_minus_toDigits short ends
    rw [hn, digits, List.cons_append] at hnumber
    rw [decimal_of_neg h, digits, List.cons_append, List.cons_append, atom, word?_of_minus hd]
    exact hnumber
  · have hn : (n.natAbs : Int) = n := by omega
    have hnumber := number_toDigits short ends
    rw [hn, digits, List.cons_append] at hnumber
    rw [decimal_of_nonneg h, digits, List.cons_append, atom, word?_of_digit hd]
    exact hnumber

end TagOutline.Json
