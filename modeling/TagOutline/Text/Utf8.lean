/-!
# Text in UTF-8

Files hold bytes. `decode` reads them as UTF-8 and says, for bytes that are no text, which of them
are at fault: the first run of bytes that starts no character, or starts one and does not finish
it.
-/

namespace TagOutline.Text.Utf8

/-- Why bytes are not the start of a character. -/
inductive Cause where
  /-- No character starts with this byte. -/
  | invalidStart
  /-- A byte that should continue the character does not. -/
  | invalidContinuation
  /-- The bytes end inside a character. -/
  | unexpectedEnd
  deriving DecidableEq

/-- The bytes at fault: `length` bytes from `position` on, the first of them being `byte`. -/
structure Fault where
  cause : Cause
  position : Nat
  length : Nat
  byte : UInt8
  deriving DecidableEq

def Cause.message : Cause → String
  | .invalidStart => "invalid start byte"
  | .invalidContinuation => "invalid continuation byte"
  | .unexpectedEnd => "unexpected end of data"

/-- Two lower-case digits of a byte in base sixteen. -/
def byteDigits (b : UInt8) : String :=
  String.ofList [Nat.digitChar (b.toNat / 16), Nat.digitChar (b.toNat % 16)]

/-- One byte is shown with its value, several by the positions of the first and the last. -/
def Fault.message (f : Fault) : String :=
  if f.length = 1 then
    s!"'utf-8' codec can't decode byte 0x{byteDigits f.byte} in position {f.position}: " ++
      f.cause.message
  else
    let last := f.position + f.length - 1
    s!"'utf-8' codec can't decode bytes in position {f.position}-{last}: " ++ f.cause.message

/-- A byte of the form `10xxxxxx`. -/
def isContinuation (b : UInt8) : Bool :=
  0x80 ≤ b && b ≤ 0xBF

/-- Whether `second` may follow the lead byte `lead`: it continues a character, and the character
is neither written with more bytes than it needs, nor a surrogate, nor past U+10FFFF. -/
def mayFollow (lead second : UInt8) : Bool :=
  isContinuation second &&
    (if lead = 0xE0 then 0xA0 ≤ second
     else if lead = 0xED then second < 0xA0
     else if lead = 0xF0 then 0x90 ≤ second
     else if lead = 0xF4 then second < 0x90
     else true)

/-- The number of bytes of a character that starts with `lead`, or `0` if none does. -/
def width (lead : UInt8) : Nat :=
  if lead < 0x80 then 1
  else if lead < 0xC2 then 0
  else if lead < 0xE0 then 2
  else if lead < 0xF0 then 3
  else if lead < 0xF5 then 4
  else 0

/-- How many of the `wanted` bytes after a character's second byte continue it. -/
def continued : Nat → List UInt8 → Nat
  | 0, _ => 0
  | _ + 1, [] => 0
  | n + 1, b :: bs => if isContinuation b then continued n bs + 1 else 0

/-- The cause, and the number of bytes to blame, if no character is read from `lead` and the bytes
after it. -/
def leadFault (lead : UInt8) (rest : List UInt8) : Option (Cause × Nat) :=
  match width lead with
  | 0 => some (.invalidStart, 1)
  | 1 => none
  | w =>
    match rest with
    | [] => some (.unexpectedEnd, 1)
    | second :: more =>
      if mayFollow lead second then
        let found := continued (w - 2) more
        if found = w - 2 then none
        else if more.length ≤ found then some (.unexpectedEnd, found + 2)
        else some (.invalidContinuation, found + 2)
      else some (.invalidContinuation, 1)

/-- The first fault of `bytes`, which stand at `position`. -/
def firstFault (position : Nat) : List UInt8 → Option Fault
  | [] => none
  | lead :: rest =>
    match leadFault lead rest with
    | some (cause, length) => some ⟨cause, position, length, lead⟩
    | none =>
      let more := width lead - 1
      firstFault (position + more + 1) (rest.drop more)
  termination_by bytes => bytes.length
  decreasing_by simp only [List.length_drop, List.length_cons]; omega

/-- The text that the bytes encode. The fault of bytes that encode none is found by `firstFault`,
which accepts what the string library accepts. -/
def decode (bytes : ByteArray) : Except Fault String :=
  match String.fromUTF8? bytes with
  | some s => .ok s
  | none => .error ((firstFault 0 bytes.toList).getD ⟨.invalidStart, 0, 1, 0⟩)

/-- The bytes of a text. -/
def encode (s : String) : ByteArray :=
  s.toUTF8

/-- Text that was encoded is read back. -/
@[simp] theorem decode_encode (s : String) : decode (encode s) = .ok s := by
  have h : String.fromUTF8? s.toUTF8 = some s := by
    simp only [String.fromUTF8?, Option.dite_none_right_eq_some]
    exact ⟨s.isValidUTF8, rfl⟩
  rw [decode, encode, h]

theorem size_pos_of_decode_eq_error {bytes : ByteArray} {f : Fault} (h : decode bytes = .error f) :
    0 < bytes.size := by
  rcases Nat.eq_zero_or_pos bytes.size with empty | positive
  · have read : decode ByteArray.empty = .ok "" := decode_encode ""
    rw [ByteArray.size_eq_zero_iff.mp empty, read] at h
    cases h
  · exact positive

/-- The text that bytes encode, with a replacement character for the bytes of each fault. -/
def decodeReplacing (bytes : ByteArray) : String :=
  match _h : decode bytes with
  | .ok s => s
  | .error f =>
    let before := (decode (bytes.extract 0 f.position)).toOption.getD ""
    before ++ "\ufffd" ++ decodeReplacing (bytes.extract (f.position + max f.length 1) bytes.size)
  termination_by bytes.size
  decreasing_by
    have positive := size_pos_of_decode_eq_error ‹decode bytes = .error f›
    rw [ByteArray.size_extract]
    omega

/-- In what was encoded there is nothing to replace. -/
@[simp] theorem decodeReplacing_encode (s : String) : decodeReplacing (encode s) = s := by
  rw [decodeReplacing]
  split
  next t h =>
    rw [decode_encode] at h
    exact (Except.ok.inj h).symm
  next f h =>
    rw [decode_encode] at h
    cases h

end TagOutline.Text.Utf8
