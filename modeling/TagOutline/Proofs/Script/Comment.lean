import Mathlib.Data.List.Infix
import TagOutline.Script.Tree
import TagOutline.Text.Lines

/-!
# Scripts that are made of pieces

A script put together from comments and strings, and the comments that such a script has. Nothing in
a piece ends it before its end, though it may hold the marks of other pieces.
-/

namespace TagOutline.Script

/-- A comment by what stands between its marks, or a string as a statement by itself. -/
inductive Piece where
  | blockComment (body : String)
  | lineComment (body : String)
  | statement (content : String)
  deriving DecidableEq

namespace Piece

def text : Piece → String
  | .blockComment body => "/*" ++ body ++ "*/"
  | .lineComment body => "//" ++ body
  | .statement content => "\"" ++ content ++ "\";"

/-- Nothing in a piece ends it before its end. -/
def IsClosed : Piece → Prop
  | .blockComment body => ¬ ['*', '/'] <:+: body.toList
  | .lineComment body =>
    ∀ c ∈ body.toList, c ≠ '\n' ∧ c ≠ '\r' ∧ c ≠ '\u2028' ∧ c ≠ '\u2029'
  | .statement content => ∀ c ∈ content.toList, c ≠ '"' ∧ c ≠ '\\' ∧ c ≠ '\n' ∧ c ≠ '\r'

instance : DecidablePred IsClosed
  | .blockComment body => inferInstanceAs (Decidable (¬ ['*', '/'] <:+: body.toList))
  | .lineComment body => List.decidableBAll _ body.toList
  | .statement content => List.decidableBAll _ content.toList

/-- The comment that a piece is, if it begins on a line. -/
def comment? (line : Nat) : Piece → Option Comment
  | .blockComment body => some ⟨.block, body, line⟩
  | .lineComment body => some ⟨.line, body, line⟩
  | .statement _ => none

def isComment : Piece → Bool
  | .statement _ => false
  | _ => true

def blockBody? : Piece → Option String
  | .blockComment body => some body
  | _ => none

end Piece

/-- Pieces with a line feed between two of them. -/
def written (ps : List Piece) : String :=
  "\n".intercalate (ps.map Piece.text)

/-- The comments among pieces that follow a text. Each begins on the line after as many line feeds
as stand before it. -/
def commentsBehind (before : List Char) : List Piece → List Comment
  | [] => []
  | p :: ps =>
    (p.comment? (Text.lineFeeds before + 1)).toList ++
      commentsBehind (before ++ p.text.toList ++ ['\n']) ps

theorem lineFeeds_append (cs ds : List Char) :
    Text.lineFeeds (cs ++ ds) = Text.lineFeeds cs + Text.lineFeeds ds :=
  List.count_append

theorem toList_written (ps : List Piece) :
    (written ps).toList = ['\n'].intercalate (ps.map fun p => p.text.toList) := by
  simp [written, String.toList_intercalate, Function.comp_def]

/-- A piece is followed by nothing, or by a line feed and the other pieces. -/
theorem intercalate_pieces (p q : Piece) (ps : List Piece) :
    ['\n'].intercalate ((p :: q :: ps).map fun p => p.text.toList) =
      p.text.toList ++ '\n' :: ['\n'].intercalate ((q :: ps).map fun p => p.text.toList) := by
  simp

theorem blockBodies_commentsBehind (ps : List Piece) (before : List Char) :
    ((commentsBehind before ps).filter fun c => c.kind = .block).map Comment.body =
      ps.filterMap Piece.blockBody? := by
  induction ps generalizing before with
  | nil => rfl
  | cons p ps ih =>
    rw [commentsBehind, List.filter_append, List.map_append, ih]
    cases p <;> rfl

end TagOutline.Script
