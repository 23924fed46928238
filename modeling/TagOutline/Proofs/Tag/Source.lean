import TagOutline.Tag.Source
import TagOutline.Proofs.Tag.Line
import TagOutline.Proofs.Text.Lines

/-!
# The tags of a text

Every tag that is ahead in a text stands on the line that its number gives, counted from one. The
numbers grow from tag to tag, and the tags on some lines do not depend on the lines behind them.
-/

namespace TagOutline.Source

theorem ahead_ofText (text : String) : (ofText text).ahead = tagsAfter 0 (Text.lines text) :=
  rfl

/-- The tags of joined lines are those on the lines. -/
theorem ahead_ofText_intercalate {ls : List String} (h : ∀ l ∈ ls, '\n' ∉ l.toList) :
    (ofText ("\n".intercalate ls)).ahead = tagsAfter 0 ls := by
  rw [ahead_ofText]
  by_cases hempty : "\n".intercalate ls = ""
  · rw [hempty]
    -- the empty text has no line, and an empty line has no tag
    rcases Text.intercalate_eq_empty (by decide) hempty with rfl | rfl
    · rfl
    · rfl
  · rw [Text.lines_intercalate_of_ne h hempty]

theorem tagsAfter_append (before : Nat) (ls ms : List String) :
    tagsAfter before (ls ++ ms) = tagsAfter before ls ++ tagsAfter (before + ls.length) ms := by
  induction ls generalizing before with
  | nil => rfl
  | cons l ls ih =>
    have hcount : before + 1 + ls.length = before + (l :: ls).length := by
      rw [List.length_cons]
      omega
    simp only [List.cons_append, tagsAfter, ih, List.append_assoc, hcount]

/-- A change of lines that changes their tags alike. -/
theorem tagsAfter_map {f : String → String} {g : Tag → Tag}
    (h : ∀ l line, Tag.ofLine? (f l) line = (Tag.ofLine? l line).map g) (before : Nat)
    (ls : List String) : tagsAfter before (ls.map f) = (tagsAfter before ls).map g := by
  induction ls generalizing before with
  | nil => rfl
  | cons l ls ih =>
    rw [List.map_cons, tagsAfter, tagsAfter, h, ih, List.map_append]
    cases Tag.ofLine? l (before + 1) with
    | none => rfl
    | some t => rfl

/-- Lines that are no tag lines have no tags. -/
theorem tagsAfter_eq_nil {ls : List String} (h : ∀ l ∈ ls, ∀ line, Tag.ofLine? l line = none)
    (before : Nat) : tagsAfter before ls = [] := by
  induction ls generalizing before with
  | nil => rfl
  | cons l ls ih =>
    rw [tagsAfter, h l (by simp), ih fun m hm => h m (List.mem_cons_of_mem l hm)]
    rfl

/-- The number of lines before some lines is told in their tags, and nowhere else. -/
theorem tagsAfter_shifted (before before' : Nat) (ls : List String) :
    tagsAfter before' ls =
      (tagsAfter before ls).map fun t => { t with line := t.line + ((before' : Int) - before) } := by
  induction ls generalizing before before' with
  | nil => rfl
  | cons l ls ih =>
    have line : (before : Int) + 1 + ((before' : Int) - before) = before' + 1 := by omega
    have same : ((before' + 1 : Nat) : Int) - ((before + 1 : Nat) : Int) = before' - before := by
      omega
    rw [tagsAfter, tagsAfter, ih (before + 1) (before' + 1), List.map_append, same, ← line,
      Tag.ofLine?_add]
    cases Tag.ofLine? l (before + 1) with
    | none => rfl
    | some t => rfl

/-- A tag stands on the line of its number. -/
theorem exists_line_of_mem_tagsAfter {before : Nat} {ls : List String} {t : Tag}
    (h : t ∈ tagsAfter before ls) :
    ∃ (i : Nat) (l : String), ls[i]? = some l ∧ Tag.ofLine? l t.line = some t ∧
      t.line = (before + i + 1 : Nat) := by
  induction ls generalizing before with
  | nil => cases h
  | cons l ls ih =>
    rw [tagsAfter] at h
    rcases List.mem_append.mp h with h | h
    · have hread : Tag.ofLine? l (before + 1) = some t := Option.mem_toList.mp h
      have hline := Tag.line_eq hread
      exact ⟨0, l, rfl, hline ▸ hread, hline⟩
    · obtain ⟨i, m, hm, hread, hline⟩ := ih h
      refine ⟨i + 1, m, hm, hread, ?_⟩
      rw [hline]
      congr 1
      omega

theorem line_of_mem_tagsAfter {before : Nat} {ls : List String} {t : Tag}
    (h : t ∈ tagsAfter before ls) : before < t.line ∧ t.line ≤ before + ls.length := by
  obtain ⟨i, l, hl, -, hline⟩ := exists_line_of_mem_tagsAfter h
  have hi : i < ls.length := (List.getElem?_eq_some_iff.mp hl).1
  rw [hline]
  omega

theorem line_le_of_mem_ahead {s : Source} {t : Tag} (h : t ∈ s.ahead) :
    t.line ≤ s.lines.length := by
  obtain ⟨above, below⟩ := line_of_mem_tagsAfter h
  rw [unread, List.length_drop] at below
  omega

/-- Tags come in the order of their lines. -/
theorem pairwise_line_tagsAfter (before : Nat) (ls : List String) :
    (tagsAfter before ls).Pairwise fun t u => t.line < u.line := by
  induction ls generalizing before with
  | nil => exact List.Pairwise.nil
  | cons l ls ih =>
    rw [tagsAfter, List.pairwise_append]
    refine ⟨?_, ih (before + 1), ?_⟩
    · cases Tag.ofLine? l (before + 1) with
      | none => exact List.Pairwise.nil
      | some t => exact List.pairwise_singleton _ t
    · intro t ht u hu
      have htline := Tag.line_eq (Option.mem_toList.mp ht)
      obtain ⟨i, m, -, -, huline⟩ := exists_line_of_mem_tagsAfter hu
      rw [htline, huline]
      omega

/-- A tag of a text stands on the line of its number, and that line is there. -/
theorem exists_line_of_mem_ahead {text : String} {t : Tag} (h : t ∈ (ofText text).ahead) :
    ∃ (i : Nat) (l : String), (Text.lines text)[i]? = some l ∧ Tag.ofLine? l t.line = some t ∧
      t.line = (i + 1 : Nat) := by
  rw [ahead_ofText] at h
  obtain ⟨i, l, hl, hread, hline⟩ := exists_line_of_mem_tagsAfter h
  exact ⟨i, l, hl, hread, by simpa using hline⟩

/-- The tags of a text are those of its first lines and those of the others. -/
theorem ahead_eq_append (text : String) (n : Nat) :
    (ofText text).ahead = tagsAfter 0 ((Text.lines text).take n) ++
      tagsAfter ((Text.lines text).take n).length ((Text.lines text).drop n) := by
  have hcut := tagsAfter_append 0 ((Text.lines text).take n) ((Text.lines text).drop n)
  rw [List.take_append_drop, Nat.zero_add] at hcut
  exact hcut

/-- The tags on the first lines are known by their numbers. -/
theorem mem_tagsAfter_take {text : String} {t : Tag} {n : Nat} (h : t ∈ (ofText text).ahead)
    (hline : t.line ≤ n) : t ∈ tagsAfter 0 ((Text.lines text).take n) := by
  rw [ahead_eq_append text n] at h
  rcases List.mem_append.mp h with h | h
  · exact h
  · obtain ⟨later, last⟩ := line_of_mem_tagsAfter h
    rw [List.length_take] at later last
    rw [List.length_drop] at last
    omega

/-- The tags behind one of them are those on the lines behind its own. -/
theorem tagsAfter_drop {before : Nat} {ls : List String} {t : Tag} {earlier later : List Tag}
    (h : tagsAfter before ls = earlier ++ t :: later) :
    tagsAfter t.line.toNat (ls.drop (t.line.toNat - before)) = later := by
  induction ls generalizing before earlier with
  | nil => cases earlier <;> cases h
  | cons l ls ih =>
    -- where the tag does not stand on the first line, the others are cut at the same number
    have behind (earlier' : List Tag) (hrest : tagsAfter (before + 1) ls = earlier' ++ t :: later) :
        tagsAfter t.line.toNat ((l :: ls).drop (t.line.toNat - before)) = later := by
      obtain ⟨above, -⟩ := line_of_mem_tagsAfter (t := t) (by rw [hrest]; simp)
      have step : t.line.toNat - before = t.line.toNat - (before + 1) + 1 := by omega
      rw [step, List.drop_succ_cons]
      exact ih hrest
    rw [tagsAfter] at h
    cases hread : Tag.ofLine? l (before + 1) with
    | none =>
      rw [hread] at h
      exact behind earlier h
    | some u =>
      rw [hread] at h
      cases earlier with
      | nil =>
        obtain ⟨rfl, hrest⟩ := List.cons.inj h
        have line : u.line.toNat = before + 1 := by
          rw [Tag.line_eq hread]
          omega
        rw [line, Nat.add_sub_cancel_left, List.drop_succ_cons, List.drop_zero]
        exact hrest
      | cons v earlier' =>
        obtain ⟨-, hrest⟩ := List.cons.inj h
        exact behind earlier' hrest

/-- Where a source has been read to one of its tags, those behind it are still ahead. -/
theorem ahead_readTo {s : Source} {t : Tag} {earlier later : List Tag}
    (h : s.ahead = earlier ++ t :: later) : (s.readTo t).ahead = later := by
  have member : t ∈ tagsAfter s.cursor s.unread := by
    rw [← ahead, h]
    simp
  obtain ⟨above, -⟩ := line_of_mem_tagsAfter member
  have left : (s.readTo t).unread = s.unread.drop (t.line.toNat - s.cursor) := by
    have cursor : s.cursor + (t.line.toNat - s.cursor) = t.line.toNat := by omega
    rw [unread, unread, List.drop_drop, cursor, readTo]
  rw [ahead, left]
  exact tagsAfter_drop h

theorem isKey_of_mem_ahead {text : String} {t : Tag} (h : t ∈ (ofText text).ahead) :
    Tag.IsKey t.key := by
  obtain ⟨i, l, -, hread, -⟩ := exists_line_of_mem_ahead h
  exact Tag.isKey_key hread

/-- The value of a tag of a text is trimmed and stands on one line. -/
theorem isValue_of_mem_ahead {text : String} {t : Tag} (h : t ∈ (ofText text).ahead) :
    Tag.IsValue t.value := by
  obtain ⟨i, l, hl, hread, -⟩ := exists_line_of_mem_ahead h
  have hmem : l ∈ Text.lines text := List.mem_of_getElem? hl
  exact Tag.isValue_value hread (Text.newline_notMem_of_mem_lines hmem)

end TagOutline.Source
