import TagOutline.Proofs.Data.Value
import TagOutline.Proofs.Json.Token

/-!
# JSON read back

A value that JSON holds is read back from its text, in every layout. The induction is on the value,
and what it carries is said of any text behind the written value, as long as that text cannot go on
with a number: of what stands between two items, of the closing mark and of the end.
-/

namespace TagOutline.Json

/-! Blanks and layouts. -/

theorem skipSpace_append {gap : List Char} (h : ∀ c ∈ gap, isSpace c = true) (rest : List Char) :
    skipSpace (gap ++ rest) = skipSpace rest :=
  List.dropWhile_append_of_pos h

theorem skipSpace_cons {c : Char} (h : isSpace c = false) (rest : List Char) :
    skipSpace (c :: rest) = c :: rest := by
  simp [skipSpace, h]

theorem isSpace_of_mem_newline {layout : Layout} {depth : Nat} :
    ∀ c ∈ layout.newline depth, isSpace c = true := by
  intro c hc
  cases layout with
  | line => cases hc
  | block indent =>
    rcases List.mem_cons.mp hc with rfl | hc
    · rfl
    · rw [(List.mem_replicate.mp hc).2]
      rfl

/-- A comma and blanks separate two items. -/
theorem exists_separator (layout : Layout) (depth : Nat) :
    ∃ gap, layout.separator depth = ',' :: gap ∧ ∀ c ∈ gap, isSpace c = true := by
  cases layout with
  | line => exact ⟨[' '], rfl, by simp [isSpace]⟩
  | block indent => exact ⟨_, rfl, isSpace_of_mem_newline⟩

theorem endsNumber_cons {c : Char} (h : c.isDigit = false ∧ c ≠ '.' ∧ c ≠ 'e' ∧ c ≠ 'E')
    (rest : List Char) : EndsNumber (c :: rest) := by
  intro d hd
  rw [← Option.some.inj hd]
  exact h

theorem endsNumber_of_blank {gap : List Char} (blank : ∀ c ∈ gap, isSpace c = true) :
    EndsNumber gap := by
  intro c hc
  have space := blank c (List.mem_of_mem_head? hc)
  simp only [isSpace, Bool.or_eq_true, decide_eq_true_eq] at space
  rcases space with ((rfl | rfl) | rfl) | rfl <;> decide

theorem endsNumber_newline {rest : List Char} (ends : EndsNumber rest) (layout : Layout)
    (depth : Nat) :
    EndsNumber (layout.newline depth ++ rest) := by
  cases layout with
  | line => exact ends
  | block indent => exact endsNumber_cons (by decide) _

/-- What stands behind an item of a list ends a number. -/
theorem endsNumber_items (layout : Layout) (depth : Nat) (xs : List Value) {rest : List Char}
    (ends : EndsNumber rest) : EndsNumber (writeItems layout depth xs ++ rest) := by
  cases xs with
  | nil => exact ends
  | cons x xs =>
    obtain ⟨gap, hsep, -⟩ := exists_separator layout depth
    rw [writeItems, hsep]
    exact endsNumber_cons (by decide) _

theorem endsNumber_members (layout : Layout) (depth : Nat) (fs : Fields Value) {rest : List Char}
    (ends : EndsNumber rest) : EndsNumber (writeMembers layout depth fs ++ rest) := by
  cases fs with
  | nil => exact ends
  | cons f fs =>
    obtain ⟨gap, hsep, -⟩ := exists_separator layout depth
    rw [writeMembers, hsep]
    exact endsNumber_cons (by decide) _

/-- How a written value begins: with no blank, no closing mark and no byte order mark. -/
def BeginsValue (cs : List Char) : Prop :=
  ∃ c rest, cs = c :: rest ∧ isSpace c = false ∧ c ≠ ']' ∧ c ≠ '\x7d' ∧ c ≠ '\ufeff'

theorem beginsValue_decimal (n : Int) : BeginsValue (decimal n).toList := by
  obtain ⟨d, ds, digits, hd, -⟩ := exists_toDigits n.natAbs
  by_cases h : n < 0
  · exact ⟨'-', _, decimal_of_neg h, by decide⟩
  · refine ⟨d, ds, (decimal_of_nonneg h).trans digits, ?_⟩
    have apart : ∀ c : Char, c.isDigit = false → d ≠ c := fun c hc => (ne_of_isDigit hc hd).symm
    refine ⟨?_, apart ']' rfl, apart '\x7d' rfl, apart '\ufeff' rfl⟩
    simp [isSpace, apart ' ' rfl, apart '\t' rfl, apart '\n' rfl, apart '\r' rfl]

theorem beginsValue_writeValue {v : Value} (h : v.IsJson) (layout : Layout) (depth : Nat) :
    BeginsValue (writeValue layout depth v) := by
  cases h with
  | null => exact ⟨'n', _, rfl, by decide⟩
  | bool b =>
    cases b with
    | false => exact ⟨'f', _, rfl, by decide⟩
    | true => exact ⟨'t', _, rfl, by decide⟩
  | int n short =>
    rw [writeValue]
    exact beginsValue_decimal n
  | text s => exact ⟨'"', _, rfl, by decide⟩
  | @list xs items =>
    cases xs with
    | nil => exact ⟨'[', _, rfl, by decide⟩
    | cons x xs =>
      rw [writeValue]
      exact ⟨'[', _, rfl, by decide⟩
  | @record fs keys distinct contents =>
    cases fs with
    | nil => exact ⟨'\x7b', _, rfl, by decide⟩
    | cons f fs =>
      rw [writeValue]
      exact ⟨'\x7b', _, rfl, by decide⟩

/-- A value that is read back wherever it is written, with fuel for each of its characters and one
more. -/
def ReadsBack (v : Value) : Prop :=
  ∀ (layout : Layout) (depth fuel : Nat) (rest : List Char), EndsNumber rest →
    (writeValue layout depth v).length ≤ fuel →
      value (fuel + 1) none (writeValue layout depth v ++ rest) = .ok (v, rest)

theorem skipSpace_writeValue {v : Value} (h : v.IsJson) (layout : Layout) (depth : Nat)
    (rest : List Char) :
    skipSpace (writeValue layout depth v ++ rest) = writeValue layout depth v ++ rest := by
  obtain ⟨c, cs, whole, solid, -⟩ := beginsValue_writeValue h layout depth
  rw [whole, List.cons_append, skipSpace_cons solid]

/-- The items of a list are read up to its closing bracket. -/
theorem items_writeItems (layout : Layout) (depth outer : Nat) (rest : List Char)
    (xs : List Value) :
    ∀ (x : Value) (fuel : Nat), (∀ y ∈ x :: xs, y.IsJson) → (∀ y ∈ x :: xs, ReadsBack y) →
      (writeValue layout depth x).length + (writeItems layout depth xs).length ≤ fuel →
      items (fuel + 2) none (writeValue layout depth x ++ (writeItems layout depth xs ++
        (layout.newline outer ++ ']' :: rest))) = .ok (x :: xs, rest) := by
  have closing : EndsNumber (layout.newline outer ++ ']' :: rest) :=
    endsNumber_newline (endsNumber_cons (by decide) rest) layout outer
  induction xs with
  | nil =>
    intro x fuel json reads enough
    have first := reads x (by simp) layout depth fuel _ closing (by omega)
    rw [writeItems, List.nil_append, items, first]
    simp only [skipSpace_append isSpace_of_mem_newline, skipSpace_cons (c := ']') rfl]
  | cons y ys ih =>
    intro x fuel json reads enough
    obtain ⟨gap, hsep, blank⟩ := exists_separator layout depth
    have first := reads x (by simp) layout depth fuel _
      (endsNumber_items layout depth (y :: ys) closing) (by omega)
    rw [writeItems, hsep] at enough
    simp only [List.length_append, List.length_cons] at enough
    -- The comma pays for the step from one item to the next.
    obtain ⟨fuel, rfl⟩ : ∃ n, fuel = n + 1 := ⟨fuel - 1, by omega⟩
    have others := ih y fuel (fun z hz => json z (by simp [hz]))
      (fun z hz => reads z (by simp [hz]))
      (by omega)
    rw [items, first]
    simp only [writeItems, hsep, List.append_assoc, List.cons_append, skipSpace_cons (c := ',') rfl,
      skipSpace_append blank, skipSpace_writeValue (json y (by simp)), others]

theorem writeString_append (s : String) (rest : List Char) :
    writeString s ++ rest = '"' :: (s.toList.flatMap escapeChar ++ '"' :: rest) := by
  simp [writeString]

/-- The name of a field is read with its colon and the blank behind it. -/
theorem fieldName_writeString (s : String) {rest : List Char} (solid : skipSpace rest = rest) :
    fieldName (writeString s ++ ':' :: ' ' :: rest) = .ok (s, rest) := by
  have blank : skipSpace (' ' :: rest) = rest := solid
  rw [writeString_append, fieldName, string_flatMap_escapeChar]
  simp only [skipSpace_cons (c := ':') rfl, blank, String.ofList_toList]

/-- The fields of a record are read up to its closing brace. -/
theorem members_writeMembers (layout : Layout) (depth outer : Nat) (rest : List Char)
    (fs : Fields Value) :
    ∀ (s : String) (x : Value) (fuel : Nat), (∀ f ∈ fs, ∃ s, f.1 = .text s) →
      (∀ f ∈ (.text s, x) :: fs, f.2.IsJson) → (∀ f ∈ (.text s, x) :: fs, ReadsBack f.2) →
      (writeValue layout depth x).length + (writeMembers layout depth fs).length ≤ fuel →
      members (fuel + 2) none (writeString s ++ ':' :: ' ' :: (writeValue layout depth x ++
        (writeMembers layout depth fs ++ (layout.newline outer ++ '\x7d' :: rest)))) =
        .ok ((.text s, x) :: fs, rest) := by
  have closing : EndsNumber (layout.newline outer ++ '\x7d' :: rest) :=
    endsNumber_newline (endsNumber_cons (by decide) rest) layout outer
  induction fs with
  | nil =>
    intro s x fuel keys json reads enough
    have hx : x.IsJson := json (.text s, x) (by simp)
    have reads : ReadsBack x := reads (.text s, x) (by simp)
    have name := fieldName_writeString s
      (skipSpace_writeValue hx layout depth (layout.newline outer ++ '\x7d' :: rest))
    have first := reads layout depth fuel _ closing (by omega)
    rw [writeMembers, List.nil_append, members, name]
    simp only [first, skipSpace_append isSpace_of_mem_newline, skipSpace_cons (c := '\x7d') rfl]
  | cons g gs ih =>
    obtain ⟨k, y⟩ := g
    intro s x fuel keys json reads enough
    obtain ⟨t, rfl⟩ : ∃ t, k = .text t := keys (k, y) (by simp)
    obtain ⟨gap, hsep, blank⟩ := exists_separator layout depth
    have hx : x.IsJson := json (.text s, x) (by simp)
    have hreads : ReadsBack x := reads (.text s, x) (by simp)
    have name := fieldName_writeString s (skipSpace_writeValue hx layout depth
      (writeMembers layout depth ((.text t, y) :: gs) ++ (layout.newline outer ++ '\x7d' :: rest)))
    have first := hreads layout depth fuel _
      (endsNumber_members layout depth ((.text t, y) :: gs) closing) (by omega)
    rw [writeMembers, hsep] at enough
    simp only [List.length_append, List.length_cons] at enough
    obtain ⟨fuel, rfl⟩ : ∃ n, fuel = n + 1 := ⟨fuel - 1, by omega⟩
    have others := ih t y fuel (fun f hf => keys f (by simp [hf])) (fun f hf => json f (by simp [hf]))
      (fun f hf => reads f (by simp [hf])) (by omega)
    have quote : ∀ cs, skipSpace (writeString t ++ cs) = writeString t ++ cs := by
      intro cs
      rw [writeString_append, skipSpace_cons rfl]
    rw [members, name]
    simp only [first]
    simp only [writeMembers, hsep, keyText, List.append_assoc, List.cons_append, List.nil_append,
      skipSpace_cons (c := ',') rfl, skipSpace_append blank, quote, others]

theorem value_of_atom {c : Char} (quote : c ≠ '"') (bracket : c ≠ '[') (brace : c ≠ '\x7b')
    (fuel : Nat) (room : Option Nat) (cs : List Char) :
    value (fuel + 1) room (c :: cs) = atom (c :: cs) := by
  simp [value, quote, bracket, brace]

theorem value_decimal {n : Int} (short : (Nat.toDigits 10 n.natAbs).length ≤ maxDigits) (fuel : Nat)
    (room : Option Nat) {rest : List Char} (ends : EndsNumber rest) :
    value (fuel + 1) room ((decimal n).toList ++ rest) = .ok (.int n, rest) := by
  rw [← atom_decimal short ends]
  obtain ⟨d, ds, digits, hd, -⟩ := exists_toDigits n.natAbs
  by_cases h : n < 0
  · rw [decimal_of_neg h]
    exact value_of_atom (by decide) (by decide) (by decide) fuel room _
  · have apart : ∀ c : Char, c.isDigit = false → d ≠ c := fun c hc => (ne_of_isDigit hc hd).symm
    rw [decimal_of_nonneg h, digits]
    exact value_of_atom (apart '"' rfl) (apart '[' rfl) (apart '\x7b' rfl) fuel room _

/-- A written value that is not closed at once is a list of items behind an opening bracket. -/
theorem value_of_items {fuel : Nat} {cs after : List Char} {xs : List Value}
    (begins : ∀ c ∈ (skipSpace cs).head?, c ≠ ']')
    (read : items fuel none (skipSpace cs) = .ok (xs, after)) :
    value (fuel + 1) none ('[' :: cs) = .ok (.list xs, after) := by
  rw [value, inside?]
  dsimp only
  split
  next rest heq => exact absurd rfl (begins ']' (by simp [heq]))
  · rw [read]

theorem value_of_members {fuel : Nat} {cs after : List Char} {fs : List (Key × Value)}
    (begins : ∀ c ∈ (skipSpace cs).head?, c ≠ '\x7d')
    (read : members fuel none (skipSpace cs) = .ok (fs, after)) :
    value (fuel + 1) none ('\x7b' :: cs) = .ok (.record (Fields.ofList fs), after) := by
  rw [value, inside?]
  dsimp only
  split
  next rest heq => exact absurd rfl (begins '\x7d' (by simp [heq]))
  · rw [read]

/-- Every value that JSON holds is read back wherever it is written. -/
theorem readsBack_of_isJson {v : Value} (h : v.IsJson) : ReadsBack v := by
  induction h with
  | null => exact fun layout depth fuel rest ends enough => rfl
  | bool b =>
    intro layout depth fuel rest ends enough
    cases b with
    | false => rfl
    | true => rfl
  | int n short =>
    exact fun layout depth fuel rest ends enough => value_decimal short fuel none ends
  | text s =>
    intro layout depth fuel rest ends enough
    rw [writeValue, writeString_append, value, string_flatMap_escapeChar]
    simp only [String.ofList_toList]
  | @list xs json ih =>
    intro layout depth fuel rest ends enough
    cases xs with
    | nil => rfl
    | cons x xs =>
      simp only [writeValue, List.length_append, List.length_cons, List.cons_append,
        List.append_assoc, List.nil_append] at enough ⊢
      obtain ⟨fuel, rfl⟩ : ∃ n, fuel = n + 2 := ⟨fuel - 2, by omega⟩
      have hx : x.IsJson := json x (by simp)
      have read := items_writeItems layout (depth + 1) depth rest xs x fuel json ih (by omega)
      rw [← skipSpace_writeValue hx, ← skipSpace_append isSpace_of_mem_newline] at read
      refine value_of_items ?_ read
      intro c hc
      obtain ⟨d, ds, whole, -, begins, -⟩ := beginsValue_writeValue hx layout (depth + 1)
      rw [skipSpace_append isSpace_of_mem_newline, skipSpace_writeValue hx, whole] at hc
      rw [← Option.some.inj hc]
      exact begins
  | @record fs keys distinct json ih =>
    intro layout depth fuel rest ends enough
    cases fs with
    | nil => rfl
    | cons f fs =>
      obtain ⟨k, x⟩ := f
      obtain ⟨s, rfl⟩ : ∃ s, k = .text s := keys (k, x) (by simp)
      simp only [writeValue, List.length_append, List.length_cons, List.cons_append,
        List.append_assoc, List.nil_append, keyText] at enough ⊢
      obtain ⟨fuel, rfl⟩ : ∃ n, fuel = n + 2 := ⟨fuel - 2, by omega⟩
      have read := members_writeMembers layout (depth + 1) depth rest fs s x fuel
        (fun f hf => keys f (by simp [hf])) json ih (by omega)
      rw [writeString_append, ← skipSpace_cons rfl, ← writeString_append,
        ← skipSpace_append isSpace_of_mem_newline] at read
      rw [← Fields.ofList_of_pairwise (Fields.pairwise_of_texts keys distinct)]
      refine value_of_members ?_ read
      intro c hc
      rw [skipSpace_append isSpace_of_mem_newline, writeString_append, skipSpace_cons rfl] at hc
      rw [← Option.some.inj hc]
      decide

/-- A value that JSON holds is read back from its text, whatever blanks stand behind it. -/
theorem read_write_append {v : Value} (h : v.IsJson) (indent : Option Int) {gap : String}
    (blank : ∀ c ∈ gap.toList, isSpace c = true) : read (write indent v ++ gap) = .ok v := by
  obtain ⟨c, rest, whole, solid, -, -, mark⟩ := beginsValue_writeValue h (.ofIndent? indent) 0
  have reads := readsBack_of_isJson h (.ofIndent? indent) 0
  rw [read, write, String.toList_append, String.toList_ofList]
  generalize writeValue (.ofIndent? indent) 0 v = cs at whole reads
  generalize gap.toList = gap at blank
  have hvalue : value (2 * (cs ++ gap).length + 2) none (cs ++ gap) = .ok (v, gap) :=
    reads (2 * (cs ++ gap).length + 1) gap (endsNumber_of_blank blank) (by rw [List.length_append]; omega)
  have hskip : skipSpace (cs ++ gap) = cs ++ gap := by
    rw [whole]
    exact skipSpace_cons solid _
  have unmarked : ∀ tail, cs ++ gap = '\ufeff' :: tail → False := by
    intro tail heq
    rw [whole] at heq
    exact mark (List.cons.inj heq).1
  have nothing : skipSpace gap = [] := by
    rw [← List.append_nil gap]
    exact skipSpace_append blank []
  rw [readChars.eq_2 _ _ unmarked, hskip, hvalue]
  dsimp only
  rw [nothing]

/-- A value that JSON holds is read back from its text, whatever the layout of the text. -/
theorem read_write {v : Value} (h : v.IsJson) (indent : Option Int) :
    read (write indent v) = .ok v := by
  have reads : read (write indent v ++ "") = .ok v := read_write_append h indent (by simp)
  rwa [String.append_empty] at reads

/-! No carriage return is written, so a stored text has the same line ends when it is read. -/

theorem return_notMem_escapeChar (c : Char) : '\r' ∉ escapeChar c := by
  unfold escapeChar
  split_ifs with quote backslash feed ret tab back form low
  · decide
  · decide
  · decide
  · decide
  · decide
  · decide
  · decide
  · have digits : ∀ n < 0x20, '\r' ∉ Text.hexDigits 4 n := by decide
    simp [digits c.toNat low]
  · simpa using fun h => ret h.symm

theorem return_notMem_writeString (s : String) : '\r' ∉ writeString s := by
  have inside : '\r' ∉ s.toList.flatMap escapeChar := by
    intro h
    obtain ⟨c, -, hc⟩ := List.mem_flatMap.mp h
    exact return_notMem_escapeChar c hc
  simp [writeString, inside]

theorem return_notMem_decimal (n : Int) : '\r' ∉ (decimal n).toList := by
  have digits : '\r' ∉ Nat.toDigits 10 n.natAbs := fun h => by
    cases isDigit_of_mem_toDigits h
  by_cases h : n < 0
  · simp [decimal_of_neg h, digits]
  · simp [decimal_of_nonneg h, digits]

theorem return_notMem_newline (layout : Layout) (depth : Nat) : '\r' ∉ layout.newline depth := by
  cases layout <;> simp [Layout.newline]

theorem return_notMem_separator (layout : Layout) (depth : Nat) :
    '\r' ∉ layout.separator depth := by
  cases layout with
  | line => simp [Layout.separator]
  | block indent => simp [Layout.separator, return_notMem_newline]

theorem return_notMem_writeItems (layout : Layout) (depth : Nat) {xs : List Value}
    (h : ∀ x ∈ xs, '\r' ∉ writeValue layout depth x) : '\r' ∉ writeItems layout depth xs := by
  induction xs with
  | nil => simp [writeItems]
  | cons x xs ih =>
    have others := ih fun y hy => h y (by simp [hy])
    simp [writeItems, return_notMem_separator, h x (by simp), others]

theorem return_notMem_writeMembers (layout : Layout) (depth : Nat) {fs : Fields Value}
    (h : ∀ f ∈ fs, '\r' ∉ writeValue layout depth f.2) : '\r' ∉ writeMembers layout depth fs := by
  induction fs with
  | nil => simp [writeMembers]
  | cons f fs ih =>
    have others := ih fun e he => h e (by simp [he])
    simp [writeMembers, return_notMem_separator, return_notMem_writeString, h f (by simp), others]

theorem return_notMem_writeValue {v : Value} (h : v.IsJson) (layout : Layout) :
    ∀ depth, '\r' ∉ writeValue layout depth v := by
  induction h with
  | null => simp [writeValue]
  | bool b => cases b <;> simp [writeValue, writeBool]
  | int n short => exact fun depth => return_notMem_decimal n
  | text s => exact fun depth => return_notMem_writeString s
  | @list xs json ih =>
    intro depth
    cases xs with
    | nil => simp [writeValue]
    | cons x xs =>
      have first := ih x (by simp) (depth + 1)
      have others : '\r' ∉ writeItems layout (depth + 1) xs :=
        return_notMem_writeItems layout (depth + 1) fun y hy => ih y (by simp [hy]) (depth + 1)
      simp [writeValue, return_notMem_newline, first, others]
  | @record fs keys distinct json ih =>
    intro depth
    cases fs with
    | nil => simp [writeValue]
    | cons f fs =>
      have first := ih f (by simp) (depth + 1)
      have others : '\r' ∉ writeMembers layout (depth + 1) fs :=
        return_notMem_writeMembers layout (depth + 1) fun e he => ih e (by simp [he]) (depth + 1)
      simp [writeValue, return_notMem_newline, return_notMem_writeString, first, others]

end TagOutline.Json
