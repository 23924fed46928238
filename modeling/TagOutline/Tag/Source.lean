import TagOutline.Tag.Line
import TagOutline.Text.Lines

/-!
# Tag sources

A text read as tags, from the first line to the last and never back. `Source.next` gives the next
tag and stops on its line; `Source.ahead` lists all the tags that are still to come, which is what
repeated reading gives.
-/

namespace TagOutline

/-- A text and the number of its lines that have been read. -/
structure Source where
  lines : List String
  cursor : Nat
  deriving DecidableEq, Inhabited

namespace Source

/-- A text of which nothing has been read. -/
def ofText (text : String) : Source :=
  ⟨Text.lines text, 0⟩

/-- The tags on `lines`, of which the first follows line number `before`. -/
def tagsAfter (before : Nat) : List String → List Tag
  | [] => []
  | l :: ls => (Tag.ofLine? l (before + 1)).toList ++ tagsAfter (before + 1) ls

/-- The first tag on `lines`, and the number of the line that reading stops on. -/
def firstTag (before : Nat) : List String → Option Tag × Nat
  | [] => (none, before)
  | l :: ls =>
    match Tag.ofLine? l (before + 1) with
    | some t => (some t, before + 1)
    | none => firstTag (before + 1) ls

/-- The lines that have not been read. -/
def unread (s : Source) : List String :=
  s.lines.drop s.cursor

/-- The tags that are still to come. -/
def ahead (s : Source) : List Tag :=
  tagsAfter s.cursor s.unread

/-- Reads the next tag. Where there is none, all lines have been read. -/
def next (s : Source) : Option Tag × Source :=
  let (tag, cursor) := firstTag s.cursor s.unread
  (tag, { s with cursor })

/-- The source once every line has been read. -/
def finished (s : Source) : Source :=
  { s with cursor := max s.cursor s.lines.length }

/-- Reads all the tags that are still to come. -/
def rest (s : Source) : List Tag × Source :=
  (s.ahead, s.finished)

/-- The source once `tag` has been read from it. -/
def readTo (s : Source) (tag : Tag) : Source :=
  { s with cursor := tag.line.toNat }

/-- A line by its number, counted from one. -/
def line (s : Source) (number : Int) : String :=
  s.lines.getD (number.toNat - 1) ""

/-- The first tag is the first of all tags. -/
theorem firstTag_fst (before : Nat) (ls : List String) :
    (firstTag before ls).1 = (tagsAfter before ls).head? := by
  induction ls generalizing before with
  | nil => rfl
  | cons l ls ih =>
    cases h : Tag.ofLine? l (before + 1) with
    | none => simp [firstTag, tagsAfter, h, ih]
    | some t => simp [firstTag, tagsAfter, h]

/-- The next tag is the first of those ahead. -/
theorem next_fst (s : Source) : s.next.1 = s.ahead.head? :=
  firstTag_fst s.cursor s.unread

end Source

end TagOutline
