import Mathlib.Data.List.Basic
import TagOutline.Text.Lines
import TagOutline.Text.Utf8

/-!
# Places in encoded text

Bytes of an encoded text that encode some text themselves begin and end between two characters, so
there is that text, with as many bytes before it as the place says. The line feeds of a text can be
counted in its bytes.
-/

namespace TagOutline.Text.Utf8

theorem size_encode (s : String) : (encode s).size = s.utf8ByteSize :=
  String.size_toByteArray

theorem encode_append (s t : String) : encode (s ++ t) = encode s ++ encode t :=
  String.toByteArray_append

theorem size_encode_append (s t : String) :
    (encode (s ++ t)).size = (encode s).size + (encode t).size := by
  rw [encode_append, ByteArray.size_append]

theorem encode_inj {s t : String} : encode s = encode t ↔ s = t :=
  String.toByteArray_inj

theorem size_encode_pos {s : String} (nonempty : s ≠ "") : 0 < (encode s).size := by
  rw [size_encode]
  exact Nat.pos_of_ne_zero fun h => nonempty (String.utf8ByteSize_eq_zero_iff.mp h)

/-- The first bytes of a text are those of its first characters. -/
theorem extract_encode_append (s t : String) :
    (encode (s ++ t)).extract 0 (encode s).size = encode s := by
  rw [encode_append]
  exact ByteArray.extract_append_eq_left rfl

/-- The bytes of a part of a text are those of its characters. -/
theorem extract_encode_middle (before t after : String) :
    (encode (before ++ t ++ after)).extract (encode before).size (encode (before ++ t)).size =
      encode t := by
  have behind := ByteArray.extract_append_size_add (a := encode before) (b := encode (t ++ after))
    (i := 0) (j := (encode t).size)
  rw [Nat.add_zero, ← encode_append, ← size_encode_append, ← String.append_assoc] at behind
  rw [behind]
  exact extract_encode_append t after

/-- Bytes of a text that are a text begin and end where one of its characters does. -/
theorem isValid_of_extract_eq {text t : String} {start stop : Nat} (nonempty : t ≠ "")
    (inside : stop ≤ (encode text).size) (covers : (encode text).extract start stop = encode t) :
    start < stop ∧ String.Pos.Raw.IsValid text ⟨start⟩ ∧ String.Pos.Raw.IsValid text ⟨stop⟩ := by
  have positive := size_encode_pos nonempty
  rw [← covers, ByteArray.size_extract] at positive
  have before : start < stop := by omega
  have valid : ((encode text).extract start stop).IsValidUTF8 := by
    rw [covers]
    exact t.isValidUTF8
  have le : (⟨start⟩ : String.Pos.Raw) ≤ ⟨stop⟩ := String.Pos.Raw.le_iff.mpr (Nat.le_of_lt before)
  have last : (⟨stop⟩ : String.Pos.Raw) ≤ text.rawEndPos := by
    rw [size_encode] at inside
    exact String.Pos.Raw.le_iff.mpr inside
  rcases (String.Pos.Raw.isValidUTF8_extract_iff _ _ le last).mp valid with same | ends
  · have equal : start = stop := congrArg String.Pos.Raw.byteIdx same
    omega
  · exact ⟨before, ends⟩

/-- Bytes of a text that are a text are a part of it. -/
theorem exists_append_of_extract_eq {text t : String} {start stop : Nat} (nonempty : t ≠ "")
    (inside : stop ≤ (encode text).size) (covers : (encode text).extract start stop = encode t) :
    ∃ before after, text = before ++ t ++ after ∧ (encode before).size = start ∧
      (encode (before ++ t)).size = stop := by
  obtain ⟨less, first, last⟩ := isValid_of_extract_eq nonempty inside covers
  obtain ⟨before, rest, cut, place⟩ := String.Pos.Raw.isValid_iff_exists_append.mp first
  obtain ⟨upTo, after, cut', place'⟩ := String.Pos.Raw.isValid_iff_exists_append.mp last
  have start_eq : (encode before).size = start := by
    rw [size_encode]
    exact (congrArg String.Pos.Raw.byteIdx place).symm
  have stop_eq : (encode upTo).size = stop := by
    rw [size_encode]
    exact (congrArg String.Pos.Raw.byteIdx place').symm
  have whole : upTo = before ++ t := by
    have parts := ByteArray.extract_eq_extract_append_extract (a := encode text) start
      (Nat.zero_le start) (Nat.le_of_lt less)
    rw [covers] at parts
    have head : (encode text).extract 0 start = encode before := by
      rw [cut, ← start_eq]
      exact extract_encode_append before rest
    have both : (encode text).extract 0 stop = encode upTo := by
      rw [cut', ← stop_eq]
      exact extract_encode_append upTo after
    rw [head, both, ← encode_append] at parts
    exact encode_inj.mp parts
  refine ⟨before, after, ?_, start_eq, ?_⟩
  · rw [← whole]
    exact cut'
  · rw [← whole]
    exact stop_eq

/-- Where fewer bytes stand before one place of a text than before another, so do characters. -/
theorem length_le_of_size_le {before after before' after' : String}
    (same : before ++ after = before' ++ after')
    (size : (encode before).size ≤ (encode before').size) : before.length ≤ before'.length := by
  rcases Nat.le_total before.length before'.length with shorter | longer
  · exact shorter
  · have first : before.toList <+: (before ++ after).toList := by simp
    have second : before'.toList <+: (before ++ after).toList := by simp [same]
    obtain ⟨more, whole⟩ := List.prefix_of_prefix_length_le second first longer
    have cut : before = before' ++ String.ofList more := by
      rw [← String.toList_inj, String.toList_append, String.toList_ofList, whole]
    have none : String.ofList more = "" := by
      rw [cut, size_encode_append, size_encode (String.ofList more)] at size
      exact String.utf8ByteSize_eq_zero_iff.mp (by omega)
    rw [none, String.append_empty] at cut
    exact Nat.le_of_eq (congrArg String.length cut)

/-- The number of characters before a place among bytes. -/
def charsBefore (bytes : ByteArray) (place : Nat) : Nat :=
  (decodeReplacing (bytes.extract 0 place)).length

theorem charsBefore_encode {text before after : String} {place : Nat} (cut : text = before ++ after)
    (size : (encode before).size = place) : charsBefore (encode text) place = before.length := by
  rw [charsBefore, cut, ← size, extract_encode_append, decodeReplacing_encode]

/-- The number of line feeds among bytes. -/
def lineFeeds (bytes : ByteArray) : Nat :=
  bytes.data.toList.count 10

/-- The byte of a line feed is a part of no other character. -/
theorem count_utf8EncodeChar (c : Char) :
    (String.utf8EncodeChar c).count 10 = if c = '\n' then 1 else 0 := by
  by_cases feed : c = '\n'
  · rw [feed]
    decide
  · rw [if_neg feed, List.count_eq_zero]
    intro member
    obtain ⟨i, hi, here⟩ := List.getElem_of_mem member
    have first : (String.utf8EncodeChar c)[i].IsUTF8FirstByte := by
      rw [here]
      decide
    obtain rfl := UInt8.isUTF8FirstByte_getElem_utf8EncodeChar.mp first
    obtain ⟨bytes, whole⟩ : ∃ bytes, String.utf8EncodeChar c = [10] ++ bytes := by
      cases encoded : String.utf8EncodeChar c with
      | nil => simp [encoded] at hi
      | cons b bytes => exact ⟨bytes, by simpa [encoded] using here⟩
    have begins : ['\n'].utf8Encode ++ bytes.toByteArray = [c].utf8Encode := by
      rw [List.utf8Encode_singleton, List.utf8Encode_singleton, whole, List.toByteArray_append]
      rfl
    have one := List.isPrefix_of_utf8Encode_append_eq_utf8Encode _ begins
    rw [List.cons_prefix_cons] at one
    exact feed one.1.symm

theorem lineFeeds_encode (s : String) : lineFeeds (encode s) = Text.lineFeeds s.toList := by
  have bytes : (encode s).data.toList = s.toList.flatMap String.utf8EncodeChar := by
    rw [encode, String.toUTF8_eq_toByteArray, ← String.utf8Encode_toList, List.utf8Encode,
      List.data_toByteArray]
  rw [lineFeeds, bytes, Text.lineFeeds]
  induction s.toList with
  | nil => rfl
  | cons c cs ih =>
    rw [List.flatMap_cons, List.count_append, ih, count_utf8EncodeChar, List.count_cons]
    simp [Nat.add_comm]

end TagOutline.Text.Utf8
