import TagOutline.Proofs.Script.Token
import TagOutline.Proofs.Text.Utf8

/-!
# Comments where the tree of a script has them

The walk over a syntax tree finds the comments of the tree in the order of the tree, each of them
once: what was found and what is still to be found below the nodes on the stack make up the same
list at every visit. Where the tree lies over a text, with the comments as tokens of it, this is
also the order of the text, and each comment stands there with its marks around it.
-/

namespace TagOutline.Script

open Text

namespace SyntaxNode

/-- The comments at a node or below it, in the order of the tree. -/
def comments (n : SyntaxNode) : List SyntaxNode :=
  if n.isComment then [n] else n.children.flatMap comments
  termination_by n
  decreasing_by
    have below := List.sizeOf_lt_of_mem ‹_ ∈ n.children›
    have whole := n.sizeOf_children_lt
    omega

theorem comments_of_isComment {n : SyntaxNode} (h : n.isComment = true) : n.comments = [n] := by
  rw [comments, if_pos h]

theorem comments_of_not {n : SyntaxNode} (h : n.isComment = false) :
    n.comments = n.children.flatMap comments := by
  rw [comments, if_neg (by simp [h])]

end SyntaxNode

namespace Walk

/-- What a walk has found and what it will find below the nodes on its stack. -/
def outcome (bytes : ByteArray) (w : Walk) : List Comment :=
  w.found ++ (w.stack.flatMap SyntaxNode.comments).map (SyntaxNode.comment bytes)

/-- A visit keeps the outcome. -/
theorem outcome_visit (bytes : ByteArray) (n : SyntaxNode) (w : Walk) :
    (w.visit bytes n).outcome bytes = outcome bytes ⟨n :: w.stack, w.found⟩ := by
  cases comment : n.isComment with
  | true =>
    simp [visit, comment, outcome, SyntaxNode.comments_of_isComment comment]
  | false =>
    simp [visit, comment, outcome, SyntaxNode.comments_of_not comment, pushAll_reverse]

theorem run_eq_outcome (bytes : ByteArray) (w : Walk) : w.run bytes = w.outcome bytes := by
  fun_induction run bytes w with
  | case1 found => simp [outcome]
  | case2 n stack found ih => rw [ih, outcome_visit]

end Walk

/-- The comments that are found are those of the tree, in its order. -/
theorem parsedComments_eq_map (parse : ByteArray → SyntaxNode) (text : String) :
    parsedComments parse text = (parse (Utf8.encode text)).comments.map
      (SyntaxNode.comment (Utf8.encode text)) := by
  rw [parsedComments, Walk.run_eq_outcome]
  simp [Walk.outcome]

/-- A tree lies over a text. The comments are tokens of the text, the nodes below any other node lie
in it one after another, and rows are counted by the line feeds. -/
inductive SyntaxNode.LiesOver (text : String) : SyntaxNode → Prop where
  | comment {n : SyntaxNode} {token : String} (isComment : n.isComment = true)
      (isToken : IsToken token.toList) (inside : n.stop ≤ (Utf8.encode text).size)
      (covers : (Utf8.encode text).extract n.start n.stop = Utf8.encode token)
      (row : n.row = Utf8.lineFeeds ((Utf8.encode text).extract 0 n.start)) :
      LiesOver text n
  | other {n : SyntaxNode} (notComment : n.isComment = false)
      (below : ∀ c ∈ n.children, LiesOver text c)
      (within : ∀ c ∈ n.children, n.start ≤ c.start ∧ c.stop ≤ n.stop)
      (ordered : n.children.Pairwise fun c d => c.stop ≤ d.start) : LiesOver text n

/-- A comment stands in a text between two places: it is written there with its marks, nothing in it
ends it, and its line has as many line feeds before it as there are before the comment. -/
structure Comment.StandsAt (text : List Char) (c : Comment) (place : Nat × Nat) : Prop where
  nonempty : place.1 < place.2
  inside : place.2 ≤ text.length
  written : (text.drop place.1).take (place.2 - place.1) = c.piece.text.toList
  closed : c.piece.IsClosed
  line : c.line = 1 + Text.lineFeeds (text.take place.1)

theorem Comment.standsAt_of_cut {before token after : List Char} {c : Comment} (nonempty : token ≠ [])
    (closed : c.piece.IsClosed) (written : c.piece.text.toList = token)
    (line : c.line = 1 + Text.lineFeeds before) :
    c.StandsAt (before ++ token ++ after) (before.length, (before ++ token).length) where
  nonempty := by
    have positive : 0 < token.length := List.length_pos_iff.mpr nonempty
    rw [List.length_append]
    omega
  inside := by
    have whole : (before ++ token ++ after).length = (before ++ token).length + after.length :=
      List.length_append
    exact whole ▸ Nat.le_add_right _ _
  written := by
    rw [written, List.length_append, Nat.add_sub_cancel_left, List.append_assoc, List.drop_left,
      List.take_left]
  closed := closed
  line := by rw [line, List.append_assoc, List.take_left]

/-- Comments stand in a text one after another. -/
def StandInOrder (text : String) (cs : List Comment) : Prop :=
  ∃ places : List (Nat × Nat), List.Forall₂ (Comment.StandsAt text.toList) cs places ∧
    places.Pairwise fun p q => p.2 ≤ q.1

namespace SyntaxNode

variable {text : String} {n m : SyntaxNode}

/-- The comments of a tree that lies over a text lie over it one after another, in what the tree
covers. -/
theorem LiesOver.comments (h : n.LiesOver text) :
    (∀ c ∈ n.comments, c.isComment = true ∧ c.LiesOver text ∧ n.start ≤ c.start ∧ c.stop ≤ n.stop) ∧
      n.comments.Pairwise fun c d => c.stop ≤ d.start := by
  induction h with
  | comment isComment isToken inside covers row =>
    rw [comments_of_isComment isComment]
    refine ⟨?_, List.pairwise_singleton _ _⟩
    intro c hc
    obtain rfl := List.mem_singleton.mp hc
    exact ⟨isComment, .comment isComment isToken inside covers row, Nat.le_refl _, Nat.le_refl _⟩
  | other notComment below within ordered ih =>
    rw [comments_of_not notComment]
    constructor
    · intro c hc
      obtain ⟨child, hchild, hc⟩ := List.mem_flatMap.mp hc
      obtain ⟨isComment, lies, first, last⟩ := (ih child hchild).1 c hc
      obtain ⟨start, stop⟩ := within child hchild
      exact ⟨isComment, lies, Nat.le_trans start first, Nat.le_trans last stop⟩
    · -- comments below two children are as far apart as the children
      refine List.pairwise_flatMap.mpr ⟨fun child hchild => (ih child hchild).2, ?_⟩
      refine ordered.imp_of_mem ?_
      intro child child' hchild hchild' before c hc d hd
      have last := ((ih child hchild).1 c hc).2.2.2
      have first := ((ih child' hchild').1 d hd).2.2.1
      omega

/-- The characters before a node and before what follows it. -/
def place (bytes : ByteArray) (n : SyntaxNode) : Nat × Nat :=
  (Utf8.charsBefore bytes n.start, Utf8.charsBefore bytes n.stop)

/-- A comment of the tree is a token of the text that begins between two characters. -/
theorem LiesOver.exists_cut (h : n.LiesOver text) (isComment : n.isComment = true) :
    ∃ before token after, text = before ++ token ++ after ∧ IsToken token.toList ∧
      (Utf8.encode before).size = n.start ∧ (Utf8.encode (before ++ token)).size = n.stop ∧
      n.text (Utf8.encode text) = token ∧ n.row = Text.lineFeeds before.toList := by
  cases h with
  | other notComment below within ordered =>
    rw [isComment] at notComment
    cases notComment
  | @comment _ token isComment isToken inside covers row =>
    have nonempty : token ≠ "" := by
      rintro rfl
      exact isToken.ne_nil rfl
    obtain ⟨before, after, cut, start, stop⟩ :=
      Utf8.exists_append_of_extract_eq nonempty inside covers
    refine ⟨before, token, after, cut, isToken, start, stop, ?_, ?_⟩
    · rw [SyntaxNode.text, covers, Utf8.decodeReplacing_encode]
    · rw [row, ← start, cut, String.append_assoc, Utf8.extract_encode_append,
        Utf8.lineFeeds_encode]

/-- The comment that a node of the tree gives stands where the node does. -/
theorem LiesOver.standsAt (h : n.LiesOver text) (isComment : n.isComment = true) :
    (n.comment (Utf8.encode text)).StandsAt text.toList (n.place (Utf8.encode text)) := by
  obtain ⟨before, token, after, cut, isToken, start, stop, covered, row⟩ := h.exists_cut isComment
  obtain ⟨c, line, closed, written⟩ := (isToken_iff (n.row + 1)).mp isToken
  have comment : n.comment (Utf8.encode text) = c := by
    rw [SyntaxNode.comment, covered, ← written, ← line, commentOf_piece]
  have first : Utf8.charsBefore (Utf8.encode text) n.start = before.length :=
    Utf8.charsBefore_encode (by rw [cut, String.append_assoc]) start
  have last : Utf8.charsBefore (Utf8.encode text) n.stop = (before ++ token).length :=
    Utf8.charsBefore_encode cut stop
  have chars : text.toList = before.toList ++ token.toList ++ after.toList := by
    rw [cut, String.toList_append, String.toList_append]
  have both : (before ++ token).length = (before.toList ++ token.toList).length := by
    rw [← String.toList_append, String.length_toList]
  rw [place, first, last, comment, chars, both]
  exact Comment.standsAt_of_cut isToken.ne_nil closed written (by rw [line, row, Nat.add_comm])

/-- Places in the characters are ordered as those in the bytes. -/
theorem place_le (h : n.LiesOver text) (isComment : n.isComment = true) (h' : m.LiesOver text)
    (isComment' : m.isComment = true) (before : n.stop ≤ m.start) :
    (n.place (Utf8.encode text)).2 ≤ (m.place (Utf8.encode text)).1 := by
  obtain ⟨b, token, after, cut, -, -, stop, -⟩ := h.exists_cut isComment
  obtain ⟨b', token', after', cut', -, start, -⟩ := h'.exists_cut isComment'
  rw [String.append_assoc] at cut'
  rw [place, place, Utf8.charsBefore_encode cut stop, Utf8.charsBefore_encode cut' start]
  apply Utf8.length_le_of_size_le (cut.symm.trans cut')
  rw [stop, start]
  exact before

/-- The comments of a tree that lies over a text stand in the text one after another. -/
theorem LiesOver.standInOrder (h : n.LiesOver text) :
    StandInOrder text (n.comments.map (SyntaxNode.comment (Utf8.encode text))) := by
  obtain ⟨lie, ordered⟩ := LiesOver.comments h
  refine ⟨n.comments.map (place (Utf8.encode text)), ?_, ?_⟩
  · rw [List.forall₂_map_left_iff, List.forall₂_map_right_iff, List.forall₂_same]
    intro c hc
    obtain ⟨isComment, lies, -⟩ := lie c hc
    exact lies.standsAt isComment
  · rw [List.pairwise_map]
    refine ordered.imp_of_mem ?_
    intro c d hc hd before
    exact place_le (lie c hc).2.1 (lie c hc).1 (lie d hd).2.1 (lie d hd).1 before

end SyntaxNode

end TagOutline.Script
