import TagOutline.Script.Scanner
import TagOutline.Script.Tree
import TagOutline.Text.Lines

/-!
# Trees of scanned scripts

A parser that goes no further than the lexemes of a script: its tree has one node for each of them,
all below one. The comments of the tree are those lexemes that are comments.
-/

namespace TagOutline.Script

open Text

/-- The comments among lexemes, of which the first begins on `line`. -/
def commentsFrom (line : Nat) : List Lexeme → List Comment
  | [] => []
  | l :: ls =>
    (l.kind.map fun kind => ⟨kind, String.ofList (bodyOf kind l.chars), line⟩).toList ++
      commentsFrom (line + Text.lineFeeds l.chars) ls

/-- The comments of a script, as they are scanned. -/
def comments (text : String) : List Comment :=
  commentsFrom 1 (lexemes text.toList)

/-- The nodes of lexemes, of which the first begins at the byte `start` on `row`. -/
def nodesFrom (start row : Nat) : List Lexeme → List SyntaxNode
  | [] => []
  | l :: ls =>
    let stop := start + (Utf8.encode (String.ofList l.chars)).size
    { type := if l.kind.isSome then "comment" else "lexeme"
      start
      stop
      row
      children := [] } :: nodesFrom stop (row + Text.lineFeeds l.chars) ls

/-- The lexemes of a text below one node. -/
def scannedTree (bytes : ByteArray) : SyntaxNode :=
  { type := "program"
    start := 0
    stop := bytes.size
    row := 0
    children := nodesFrom 0 0 (lexemes (Utf8.decodeReplacing bytes).toList) }

end TagOutline.Script
