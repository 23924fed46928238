import TagOutline.Script.Comment
import TagOutline.Text.Utf8

/-!
# Comments of syntax trees

The comments that the syntax tree of a script holds. A tree tells places by the bytes of the text.
It is walked with a stack of the nodes that are still to be visited, and what stands below a comment
is not looked at. Which tree a script has is up to the parser that is given.
-/

namespace TagOutline.Script

/-- A node of a syntax tree: what it is, the bytes that it covers, from `start` up to `stop`, the
row that it begins on, counted from zero, and the nodes below it. -/
structure SyntaxNode where
  type : String
  start : Nat
  stop : Nat
  row : Nat
  children : List SyntaxNode

/-- The comment that is written with its marks on a line. A block comment may lack the mark that
closes it. -/
def commentOf (chars : List Char) (line : Nat) : Comment :=
  if ['/', '*'].isPrefixOf chars then
    ⟨.block, String.ofList (if ['*', '/'].isSuffixOf chars then bodyOf .block chars
      else chars.drop 2), line⟩
  else ⟨.line, String.ofList (bodyOf .line chars), line⟩

namespace SyntaxNode

def isComment (n : SyntaxNode) : Bool :=
  n.type = "comment"

/-- What a node covers of a text that is given by its bytes. -/
def text (bytes : ByteArray) (n : SyntaxNode) : String :=
  Text.Utf8.decodeReplacing (bytes.extract n.start n.stop)

def comment (bytes : ByteArray) (n : SyntaxNode) : Comment :=
  commentOf (n.text bytes).toList (n.row + 1)

theorem sizeOf_children_lt (n : SyntaxNode) : sizeOf n.children < sizeOf n := by
  cases n with
  | mk type start stop row children =>
    show sizeOf children < _
    rw [SyntaxNode.mk.sizeOf_spec]
    omega

end SyntaxNode

/-- A walk over a tree: the nodes that are still to be visited, the next one first, and the comments
that were found so far. -/
structure Walk where
  stack : List SyntaxNode
  found : List Comment

namespace Walk

/-- Puts nodes on a stack, each on top of the one before it. -/
def pushAll (stack ns : List SyntaxNode) : List SyntaxNode :=
  ns.foldl (fun stack n => n :: stack) stack

/-- Visits a node that was taken from the stack. The nodes below it are put there from the last to
the first. -/
def visit (bytes : ByteArray) (n : SyntaxNode) (w : Walk) : Walk :=
  if n.isComment then { w with found := w.found ++ [n.comment bytes] }
  else { w with stack := pushAll w.stack n.children.reverse }

/-- Nodes that were pushed from the last to the first are visited from the first to the last. -/
theorem pushAll_reverse (stack ns : List SyntaxNode) : pushAll stack ns.reverse = ns ++ stack := by
  rw [pushAll, List.foldl_reverse]
  exact List.foldr_cons_eq_append'

theorem sizeOf_append (ns ms : List SyntaxNode) :
    sizeOf (ns ++ ms) + 1 = sizeOf ns + sizeOf ms := by
  induction ns with
  | nil => simp [Nat.add_comm]
  | cons n ns ih =>
    simp only [List.cons_append, List.cons.sizeOf_spec]
    omega

theorem sizeOf_visit_lt (bytes : ByteArray) (n : SyntaxNode) (w : Walk) :
    sizeOf (w.visit bytes n).stack < sizeOf (n :: w.stack) := by
  have below := n.sizeOf_children_lt
  have whole := sizeOf_append n.children w.stack
  rw [List.cons.sizeOf_spec, visit]
  split
  · show sizeOf w.stack < _
    omega
  · show sizeOf (pushAll w.stack n.children.reverse) < _
    rw [pushAll_reverse]
    omega

/-- Visits all the nodes. -/
def run (bytes : ByteArray) : Walk → List Comment
  | ⟨[], found⟩ => found
  | ⟨n :: stack, found⟩ => run bytes (visit bytes n ⟨stack, found⟩)
  termination_by w => sizeOf w.stack
  decreasing_by exact sizeOf_visit_lt bytes n ⟨stack, found⟩

end Walk

/-- The comments of a script, found in the tree that is parsed from its bytes. -/
def parsedComments (parse : ByteArray → SyntaxNode) (text : String) : List Comment :=
  let bytes := Text.Utf8.encode text
  Walk.run bytes ⟨[parse bytes], []⟩

/-- The bodies of the block comments of a script. -/
def blockComments (parse : ByteArray → SyntaxNode) (text : String) : List String :=
  ((parsedComments parse text).filter fun c => c.kind = .block).map Comment.body

end TagOutline.Script
