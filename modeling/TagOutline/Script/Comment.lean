/-!
# Comments of scripts

A comment is what stands between its marks, and the number of the line that it begins on.
-/

namespace TagOutline.Script

inductive CommentKind where
  | block
  | line
  deriving DecidableEq, Repr

/-- A comment: its kind, what stands between its marks, and the line that it begins on. -/
structure Comment where
  kind : CommentKind
  body : String
  line : Nat
  deriving DecidableEq

def CommentKind.name : CommentKind → String
  | .block => "block"
  | .line => "line"

/-- What stands between the marks of a comment. -/
def bodyOf (kind : CommentKind) (chars : List Char) : List Char :=
  match kind with
  | .block => (chars.drop 2).take (chars.length - 4)
  | .line => chars.drop 2

end TagOutline.Script
