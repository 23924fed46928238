import Mathlib.Data.List.TakeWhile
import TagOutline.Proofs.Script.Tree
import TagOutline.Script.ScannedTree

/-!
# Places of comments

The comments of a script stand in its text one after another, each where it is told to begin. For
the comments of a syntax tree this is what the tree gives; the scanner's lexemes make up such a
tree, so it holds of the comments that are scanned too.
-/

namespace TagOutline.Script

/-! The lexemes that are comments. -/

theorem kind_readTemplate (s : ScanState) (outer : List Context) (c : Char) (rest : List Char) :
    (readTemplate s outer c rest).kind = none := by
  unfold readTemplate
  split
  · rfl
  · split <;> rfl

theorem kind_readElement (s : ScanState) (c : Char) (rest : List Char) :
    (readElement s c rest).kind = none := by
  unfold readElement
  split
  · rfl
  · split <;> rfl

theorem kind_readTag (s : ScanState) (closing : Bool) (outer : List Context) (c : Char)
    (rest : List Char) : (readTag s closing outer c rest).kind = none := by
  unfold readTag
  repeat' split
  all_goals rfl

theorem kind_readMark (s : ScanState) (c : Char) (rest : List Char) :
    (readMark s c rest).kind = none := by
  unfold readMark
  repeat' split
  all_goals rfl

theorem kind_readProgram (s : ScanState) (c : Char) (rest : List Char) :
    (readProgram s c rest).kind = none := by
  unfold readProgram
  simp only [apply_ite Reading.kind, kind_readMark, ite_self]

/-- Nothing is a comment that is not read as one. -/
theorem kind_readOther (s : ScanState) (c : Char) (rest : List Char) :
    (readOther s c rest).kind = none := by
  unfold readOther
  split
  · exact kind_readTemplate ..
  · exact kind_readElement ..
  · exact kind_readTag ..
  · exact kind_readTag ..
  · exact kind_readProgram ..

/-- A block comment ends at a closing mark with none before it. -/
theorem exists_of_blockLength? {cs : List Char} {n : Nat} (h : blockLength? cs = some n) :
    ∃ body rest, cs = body ++ '*' :: '/' :: rest ∧ n = body.length + 2 ∧ IsUnclosed body := by
  fun_induction blockLength? cs generalizing n with
  | case1 => cases h
  | case2 rest => exact ⟨[], rest, rfl, (Option.some.inj h).symm, .nil⟩
  | case3 c cs noMark ih =>
    obtain ⟨m, hm, rfl⟩ := Option.map_eq_some_iff.mp h
    obtain ⟨body, rest, rfl, rfl, unclosed⟩ := ih hm
    refine ⟨c :: body, rest, rfl, by simp, isUnclosed_cons.mpr ⟨?_, unclosed⟩⟩
    -- a slash behind this star would have ended the comment here
    rintro d hd ⟨rfl, rfl⟩
    cases body with
    | nil => cases hd
    | cons e body =>
      obtain rfl := Option.some.inj hd
      exact noMark _ rfl rfl

/-- What is written is a comment of a kind with its marks, whatever line it stands on. -/
def IsMarked (kind : CommentKind) (chars : List Char) : Prop :=
  ∀ line, ∃ b : Comment, b.kind = kind ∧ b.line = line ∧ b.piece.IsClosed ∧
    b.piece.text.toList = chars

theorem IsMarked.isToken {kind : CommentKind} {chars : List Char} (h : IsMarked kind chars) :
    IsToken chars := by
  obtain ⟨b, -, line, closed, written⟩ := h 0
  exact (isToken_iff 0).mpr ⟨b, line, closed, written⟩

/-- What is read as a comment is one, with its marks. -/
theorem isMarked_of_comment? {c : Char} {rest : List Char} {kind : CommentKind} {more : Nat}
    (h : comment? c rest = some (kind, more)) : IsMarked kind (c :: rest.take more) := by
  intro line
  unfold comment? at h
  split at h
  next cs =>
    obtain ⟨n, hn, same⟩ := Option.map_eq_some_iff.mp h
    obtain ⟨rfl, rfl⟩ := Prod.mk.inj same
    obtain ⟨body, after, rfl, rfl, unclosed⟩ := exists_of_blockLength? hn
    refine ⟨⟨.block, String.ofList body, line⟩, rfl, rfl, ?_, ?_⟩
    · show ¬ ['*', '/'] <:+: (String.ofList body).toList
      rw [String.toList_ofList]
      exact isUnclosed_iff.mp unclosed
    · have cut : '*' :: (body ++ '*' :: '/' :: after) =
          '*' :: (body ++ ['*'] ++ ['/']) ++ after := by simp
      rw [Comment.toList_piece_block, String.toList_ofList, cut, List.take_left' (by simp)]
  next cs =>
    obtain ⟨rfl, rfl⟩ := Prod.mk.inj (Option.some.inj h)
    refine ⟨⟨.line, String.ofList (cs.takeWhile fun c => !endsLine c), line⟩, rfl, rfl, ?_, ?_⟩
    · intro d hd
      rw [String.toList_ofList] at hd
      have inside := List.mem_takeWhile_imp hd
      simpa [endsLine, and_assoc] using inside
    · have prefixed := List.takeWhile_prefix (l := cs) fun c => !endsLine c
      rw [Comment.toList_piece_line, String.toList_ofList, lineLength, List.take_succ_cons,
        ← List.prefix_iff_eq_take.mp prefixed]
  next => cases h

theorem comment?_of_read {s : ScanState} {c : Char} {rest : List Char} {kind : CommentKind}
    (h : (read s c rest).kind = some kind) :
    comment? c rest = some (kind, (read s c rest).more) := by
  unfold read at h ⊢
  cases found : (if s.allowsComments then comment? c rest else none) with
  | none =>
    rw [found] at h
    rw [kind_readOther] at h
    cases h
  | some comment =>
    rw [found] at h
    obtain ⟨allowed, here⟩ := Option.ite_none_right_eq_some.mp found
    obtain rfl := Option.some.inj h
    rw [here]

/-- Lexemes of which those that are comments are so with their marks. -/
def AreMarked (ls : List Lexeme) : Prop :=
  ∀ l ∈ ls, ∀ kind, l.kind = some kind → IsMarked kind l.chars

theorem areMarked_lexemesFrom (s : ScanState) (cs : List Char) : AreMarked (lexemesFrom s cs) := by
  fun_induction lexemesFrom s cs with
  | case1 => simp [AreMarked]
  | case2 s c rest r ih =>
    intro l hl kind isComment
    rcases List.mem_cons.mp hl with rfl | hl
    · exact isMarked_of_comment? (comment?_of_read isComment)
    · exact ih l hl kind isComment

/-! The tree of a text that is scanned. -/

open Text

/-- The node of a lexeme that follows a text. -/
def nodeBehind (before : List Char) (l : Lexeme) : SyntaxNode :=
  { type := if l.kind.isSome then "comment" else "lexeme"
    start := (Utf8.encode (String.ofList before)).size
    stop := (Utf8.encode (String.ofList (before ++ l.chars))).size
    row := Text.lineFeeds before
    children := [] }

def nodesBehind (before : List Char) : List Lexeme → List SyntaxNode
  | [] => []
  | l :: ls => nodeBehind before l :: nodesBehind (before ++ l.chars) ls

/-- Bytes and rows that are counted from lexeme to lexeme are those of the text before. -/
theorem nodesFrom_eq_nodesBehind (before : List Char) (ls : List Lexeme) :
    nodesFrom (Utf8.encode (String.ofList before)).size (Text.lineFeeds before) ls =
      nodesBehind before ls := by
  induction ls generalizing before with
  | nil => rfl
  | cons l ls ih =>
    have size : (Utf8.encode (String.ofList before)).size +
        (Utf8.encode (String.ofList l.chars)).size =
          (Utf8.encode (String.ofList (before ++ l.chars))).size := by
      rw [String.ofList_append, Utf8.size_encode_append]
    rw [nodesBehind, ← ih, lineFeeds_append, ← size]
    simp only [nodesFrom, nodeBehind, String.ofList_append, Utf8.size_encode_append]

theorem children_scannedTree (text : String) :
    (scannedTree (Utf8.encode text)).children = nodesBehind [] (lexemes text.toList) := by
  rw [← nodesFrom_eq_nodesBehind, scannedTree, Utf8.decodeReplacing_encode]
  rfl

variable {text : String} {before : List Char} {l : Lexeme} {ls : List Lexeme}

theorem isComment_nodeBehind (before : List Char) (l : Lexeme) :
    (nodeBehind before l).isComment = l.kind.isSome := by
  rw [SyntaxNode.isComment, nodeBehind]
  cases l.kind <;> rfl

/-- The nodes of lexemes cover the text behind `before`, one after another. -/
theorem nodesBehind_ordered (before : List Char) (ls : List Lexeme) :
    (∀ n ∈ nodesBehind before ls, (Utf8.encode (String.ofList before)).size ≤ n.start ∧
      n.stop ≤ (Utf8.encode (String.ofList (before ++ ls.flatMap Lexeme.chars))).size) ∧
    (nodesBehind before ls).Pairwise fun m n => m.stop ≤ n.start := by
  induction ls generalizing before with
  | nil => exact ⟨by simp [nodesBehind], List.Pairwise.nil⟩
  | cons l ls ih =>
    have grows (cs ds : List Char) : (Utf8.encode (String.ofList cs)).size ≤
        (Utf8.encode (String.ofList (cs ++ ds))).size := by
      rw [String.ofList_append, Utf8.size_encode_append]
      exact Nat.le_add_right _ _
    obtain ⟨within, ordered⟩ := ih (before ++ l.chars)
    rw [nodesBehind, List.flatMap_cons, ← List.append_assoc]
    refine ⟨?_, List.pairwise_cons.mpr ⟨fun n hn => (within n hn).1, ordered⟩⟩
    intro n hn
    rcases List.mem_cons.mp hn with rfl | hn
    · exact ⟨Nat.le_refl _, grows _ _⟩
    · obtain ⟨first, last⟩ := within n hn
      exact ⟨Nat.le_trans (grows _ _) first, last⟩

/-- A text is cut at its first lexeme behind `before`. -/
theorem eq_append_of_lexeme (whole : text.toList = before ++ (l :: ls).flatMap Lexeme.chars) :
    text = String.ofList before ++ String.ofList l.chars ++
      String.ofList (ls.flatMap Lexeme.chars) := by
  rw [← String.toList_inj, whole]
  simp

theorem extract_nodeBehind (whole : text.toList = before ++ (l :: ls).flatMap Lexeme.chars) :
    (Utf8.encode text).extract (nodeBehind before l).start (nodeBehind before l).stop =
      Utf8.encode (String.ofList l.chars) := by
  rw [nodeBehind, eq_append_of_lexeme whole, String.ofList_append]
  exact Utf8.extract_encode_middle _ _ _

theorem liesOver_nodeBehind (marked : AreMarked (l :: ls))
    (whole : text.toList = before ++ (l :: ls).flatMap Lexeme.chars) :
    (nodeBehind before l).LiesOver text := by
  have cut := eq_append_of_lexeme whole
  have same := isComment_nodeBehind before l
  cases kind : l.kind with
  | none =>
    rw [kind] at same
    exact .other same (by simp [nodeBehind]) (by simp [nodeBehind]) List.Pairwise.nil
  | some k =>
    rw [kind] at same
    have isToken : IsToken (String.ofList l.chars).toList := by
      rw [String.toList_ofList]
      exact (marked l (by simp) k kind).isToken
    refine .comment same isToken ?_ (extract_nodeBehind whole) ?_
    · rw [cut, ← String.ofList_append, Utf8.size_encode_append]
      exact Nat.le_add_right _ _
    · rw [cut, String.append_assoc, nodeBehind, Utf8.extract_encode_append,
        Utf8.lineFeeds_encode, String.toList_ofList]

theorem liesOver_of_mem_nodesBehind (marked : AreMarked ls)
    (whole : text.toList = before ++ ls.flatMap Lexeme.chars) :
    ∀ n ∈ nodesBehind before ls, n.LiesOver text := by
  induction ls generalizing before with
  | nil => simp [nodesBehind]
  | cons l ls ih =>
    have others : AreMarked ls := fun m hm => marked m (List.mem_cons_of_mem l hm)
    intro n hn
    rcases List.mem_cons.mp hn with rfl | hn
    · exact liesOver_nodeBehind marked whole
    · exact ih others (by rw [whole, List.flatMap_cons, List.append_assoc]) n hn

/-- The tree of the lexemes lies over the text. -/
theorem liesOver_scannedTree (text : String) : (scannedTree (Utf8.encode text)).LiesOver text := by
  have chars : (lexemes text.toList).flatMap Lexeme.chars = text.toList :=
    flatMap_chars_lexemesFrom _ _
  obtain ⟨within, ordered⟩ := nodesBehind_ordered [] (lexemes text.toList)
  rw [List.nil_append, chars, String.ofList_toList] at within
  rw [← children_scannedTree] at within ordered
  refine .other rfl ?_ ?_ ordered
  · rw [children_scannedTree]
    exact liesOver_of_mem_nodesBehind (areMarked_lexemesFrom _ _) chars.symm
  · exact fun n hn => ⟨Nat.zero_le _, (within n hn).2⟩

theorem comments_nodeBehind (marked : AreMarked (l :: ls))
    (whole : text.toList = before ++ (l :: ls).flatMap Lexeme.chars) :
    (nodeBehind before l).comments.map (SyntaxNode.comment (Utf8.encode text)) =
      (l.kind.map fun kind =>
        ⟨kind, String.ofList (bodyOf kind l.chars), Text.lineFeeds before + 1⟩).toList := by
  have same := isComment_nodeBehind before l
  cases kind : l.kind with
  | none =>
    rw [kind] at same
    rw [SyntaxNode.comments_of_not same]
    rfl
  | some k =>
    rw [kind] at same
    obtain ⟨b, rfl, line, -, written⟩ := marked l (by simp) k kind (Text.lineFeeds before + 1)
    have comment : (nodeBehind before l).comment (Utf8.encode text) = b := by
      rw [SyntaxNode.comment, SyntaxNode.text, extract_nodeBehind whole,
        Utf8.decodeReplacing_encode, String.toList_ofList, ← written, nodeBehind, ← line,
        commentOf_piece]
    rw [SyntaxNode.comments_of_isComment same, List.map_singleton, comment, Option.map_some,
      ← written, bodyOf_piece, String.ofList_toList, ← line]
    rfl

/-- The comments of the nodes are those of the lexemes. -/
theorem comments_nodesBehind (marked : AreMarked ls)
    (whole : text.toList = before ++ ls.flatMap Lexeme.chars) :
    ((nodesBehind before ls).flatMap SyntaxNode.comments).map
        (SyntaxNode.comment (Utf8.encode text)) =
      commentsFrom (Text.lineFeeds before + 1) ls := by
  induction ls generalizing before with
  | nil => rfl
  | cons l ls ih =>
    have others : AreMarked ls := fun m hm => marked m (List.mem_cons_of_mem l hm)
    have line : Text.lineFeeds (before ++ l.chars) + 1 =
        Text.lineFeeds before + 1 + Text.lineFeeds l.chars := by
      rw [lineFeeds_append]
      omega
    rw [nodesBehind, List.flatMap_cons, List.map_append, comments_nodeBehind marked whole,
      ih others (by rw [whole, List.flatMap_cons, List.append_assoc]), commentsFrom, line]

/-- The comments that are scanned are found in the tree of the lexemes. -/
theorem parsedComments_scannedTree (text : String) :
    parsedComments scannedTree text = comments text := by
  have chars : (lexemes text.toList).flatMap Lexeme.chars = text.toList :=
    flatMap_chars_lexemesFrom _ _
  have whole : text.toList = [] ++ (lexemes text.toList).flatMap Lexeme.chars := chars.symm
  have scanned := comments_nodesBehind (areMarked_lexemesFrom _ _) whole
  rw [parsedComments_eq_map, SyntaxNode.comments_of_not rfl, children_scannedTree, comments]
  exact scanned

/-- The law of the places of comments. Whatever tree is parsed from the bytes of a text, its
comments are found in the order of the tree, each once. Where the tree lies over the text they stand
in it one after another: each is written there with its marks, no comment begins before the one
ahead of it has ended, and the line that is told is that of the place. The lexemes that are scanned
make up a tree of the text with the comments of the text, so all this holds of them. -/
theorem comments_stand_in_order :
    (∀ (parse : ByteArray → SyntaxNode) (text : String),
      parsedComments parse text = (parse (Utf8.encode text)).comments.map
        (SyntaxNode.comment (Utf8.encode text)) ∧
      ((parse (Utf8.encode text)).LiesOver text →
        StandInOrder text (parsedComments parse text))) ∧
    ∀ text : String, (scannedTree (Utf8.encode text)).LiesOver text ∧
      parsedComments scannedTree text = comments text ∧ StandInOrder text (comments text) := by
  have parsed (parse : ByteArray → SyntaxNode) (text : String)
      (h : (parse (Utf8.encode text)).LiesOver text) :
      StandInOrder text (parsedComments parse text) := by
    rw [parsedComments_eq_map]
    exact h.standInOrder
  refine ⟨fun parse text => ⟨parsedComments_eq_map parse text, parsed parse text⟩, ?_⟩
  intro text
  have lies := liesOver_scannedTree text
  have scanned := parsedComments_scannedTree text
  refine ⟨lies, scanned, ?_⟩
  rw [← scanned]
  exact parsed scannedTree text lies

/-- Braces around an empty comment, and behind them a comment with a mark that closes nothing. -/
def bracedTree : SyntaxNode :=
  { type := "program", start := 0, stop := 15, row := 0, children := [
    { type := "statement_block", start := 0, stop := 8, row := 0, children := [
      { type := "\x7b", start := 0, stop := 1, row := 0, children := [] },
      { type := "comment", start := 2, stop := 6, row := 0, children := [] },
      { type := "\x7d", start := 7, stop := 8, row := 0, children := [] }] },
    { type := "comment", start := 9, stop := 15, row := 1, children := [] }] }

theorem liesOver_bracedTree : bracedTree.LiesOver "\x7b /**/ \x7d\n//é*/" := by
  have lexeme (type : String) (start stop row : Nat)
      (notComment : (⟨type, start, stop, row, []⟩ : SyntaxNode).isComment = false) :
      SyntaxNode.LiesOver "\x7b /**/ \x7d\n//é*/" ⟨type, start, stop, row, []⟩ :=
    .other notComment (by simp) (by simp) List.Pairwise.nil
  have empty : IsToken "/**/".toList := .block (.last [] (by simp) 0)
  have marked : IsToken "//é*/".toList :=
    (isToken_iff 2).mpr ⟨⟨.line, "é*/", 2⟩, rfl, by decide, rfl⟩
  have first : SyntaxNode.LiesOver "\x7b /**/ \x7d\n//é*/" ⟨"comment", 2, 6, 0, []⟩ :=
    .comment rfl empty (by decide) (by decide) (by decide)
  have second : SyntaxNode.LiesOver "\x7b /**/ \x7d\n//é*/" ⟨"comment", 9, 15, 1, []⟩ :=
    .comment rfl marked (by decide) (by decide) (by decide)
  rw [bracedTree]
  refine .other rfl ?_ (by simp) (by simp)
  simp only [List.forall_mem_cons, List.not_mem_nil, false_imp_iff, implies_true, and_true]
  refine ⟨.other rfl ?_ (by simp) (by simp), second⟩
  simp only [List.forall_mem_cons, List.not_mem_nil, false_imp_iff, implies_true, and_true]
  exact ⟨lexeme _ _ _ _ rfl, first, lexeme _ _ _ _ rfl⟩

theorem comments_stand_in_order_braced :
    bracedTree.LiesOver "\x7b /**/ \x7d\n//é*/" ∧
    parsedComments (fun _ => bracedTree) "\x7b /**/ \x7d\n//é*/" =
      [⟨.block, "", 1⟩, ⟨.line, "é*/", 2⟩] ∧
    comments "\x7b /**/ \x7d\n//é*/" = [⟨.block, "", 1⟩, ⟨.line, "é*/", 2⟩] ∧
    StandInOrder "\x7b /**/ \x7d\n//é*/" [⟨.block, "", 1⟩, ⟨.line, "é*/", 2⟩] := by
  obtain ⟨-, stand⟩ := comments_stand_in_order.1 (fun _ => bracedTree) "\x7b /**/ \x7d\n//é*/"
  have parsed : parsedComments (fun _ => bracedTree) "\x7b /**/ \x7d\n//é*/" =
      [⟨.block, "", 1⟩, ⟨.line, "é*/", 2⟩] := by decide +kernel
  have found : comments "\x7b /**/ \x7d\n//é*/" = [⟨.block, "", 1⟩, ⟨.line, "é*/", 2⟩] := by
    decide +kernel
  rw [parsed] at stand
  exact ⟨liesOver_bracedTree, parsed, found, stand liesOver_bracedTree⟩

end TagOutline.Script
