import TagOutline.Proofs.Script.Position
import TagOutline.Proofs.Script.Scanner

/-!
# Comments of scripts that are made of pieces

A parser that finds the comments of a script tells where they stand, by bytes and rows. From this
the comments come back as they were written: the marks are taken off once, and what one piece holds
of the marks of another stays in it. The scanner is such a parser.
-/

namespace TagOutline.Script

open Text

/-- The bytes that something covers, and the row that it begins on. -/
structure Span where
  start : Nat
  stop : Nat
  row : Nat
  deriving DecidableEq

def SyntaxNode.span (n : SyntaxNode) : Span :=
  ⟨n.start, n.stop, n.row⟩

/-- Where a token stands that follows a text. -/
def spanBehind (before token : List Char) : Span :=
  { start := (Utf8.encode (String.ofList before)).size
    stop := (Utf8.encode (String.ofList (before ++ token))).size
    row := Text.lineFeeds before }

/-- Where the comments among pieces stand that follow a text. -/
def spansBehind (before : List Char) : List Piece → List Span
  | [] => []
  | p :: ps =>
    (if p.isComment then [spanBehind before p.text.toList] else []) ++
      spansBehind (before ++ p.text.toList ++ ['\n']) ps

/-- A parser that finds the comments of scripts that are put together from closed pieces, without
the null character: they are the comments of the tree, in order, and each of them covers its
piece. -/
def FindsComments (parse : ByteArray → SyntaxNode) : Prop :=
  ∀ ps : List Piece, (∀ p ∈ ps, p.IsClosed) → '\x00' ∉ (written ps).toList →
    (parse (Utf8.encode (written ps))).comments.map SyntaxNode.span = spansBehind [] ps

/-! Comments by their places. -/

/-- The comment that stands at a place. -/
def commentAt (bytes : ByteArray) (s : Span) : Comment :=
  commentOf (Utf8.decodeReplacing (bytes.extract s.start s.stop)).toList (s.row + 1)

/-- What stands at the place of a token is the token. -/
theorem commentAt_spanBehind {text : String} {before token after : List Char}
    (whole : text.toList = before ++ token ++ after) :
    commentAt (Utf8.encode text) (spanBehind before token) =
      commentOf token (Text.lineFeeds before + 1) := by
  have cut : text = String.ofList before ++ String.ofList token ++ String.ofList after := by
    rw [← String.toList_inj, whole]
    simp
  rw [commentAt, spanBehind, cut, String.ofList_append, Utf8.extract_encode_middle,
    Utf8.decodeReplacing_encode, String.toList_ofList]

theorem commentsAt_piece {text : String} {before after : List Char} (p : Piece)
    (whole : text.toList = before ++ p.text.toList ++ after) :
    ((if p.isComment then [spanBehind before p.text.toList] else []).map
        (commentAt (Utf8.encode text))) = (p.comment? (Text.lineFeeds before + 1)).toList := by
  cases p with
  | statement content => rfl
  | blockComment body =>
    have comment := commentOf_piece ⟨.block, body, Text.lineFeeds before + 1⟩
    exact congrArg ([·]) ((commentAt_spanBehind whole).trans comment)
  | lineComment body =>
    have comment := commentOf_piece ⟨.line, body, Text.lineFeeds before + 1⟩
    exact congrArg ([·]) ((commentAt_spanBehind whole).trans comment)

/-- The comments at the places of the comments among pieces are those among the pieces. -/
theorem commentsAt_spansBehind {text : String} {ps : List Piece} {before : List Char}
    (whole : text.toList = before ++ ['\n'].intercalate (ps.map fun p => p.text.toList)) :
    (spansBehind before ps).map (commentAt (Utf8.encode text)) = commentsBehind before ps := by
  induction ps generalizing before with
  | nil => rfl
  | cons p ps ih =>
    rw [spansBehind, commentsBehind, List.map_append]
    cases ps with
    | nil =>
      have first : text.toList = before ++ p.text.toList ++ [] := by simpa using whole
      rw [commentsAt_piece p first]
      rfl
    | cons q ps =>
      rw [intercalate_pieces] at whole
      have first : text.toList = before ++ p.text.toList ++
          '\n' :: ['\n'].intercalate ((q :: ps).map fun p => p.text.toList) := by
        rw [whole, List.append_assoc]
      rw [commentsAt_piece p first, ih (by rw [whole]; simp)]

section

variable {parse : ByteArray → SyntaxNode} {ps : List Piece}

/-- A parser that finds the comments of pieces gives them back as they were written. -/
theorem parsedComments_written (finds : FindsComments parse) (closed : ∀ p ∈ ps, p.IsClosed)
    (noNull : '\x00' ∉ (written ps).toList) :
    parsedComments parse (written ps) = commentsBehind [] ps := by
  have whole : (written ps).toList =
      [] ++ ['\n'].intercalate (ps.map fun p => p.text.toList) := toList_written ps
  rw [parsedComments_eq_map, ← commentsAt_spansBehind whole, ← finds ps closed noNull,
    List.map_map]
  rfl

theorem blockComments_written (finds : FindsComments parse) (closed : ∀ p ∈ ps, p.IsClosed)
    (noNull : '\x00' ∉ (written ps).toList) :
    blockComments parse (written ps) = ps.filterMap Piece.blockBody? := by
  rw [blockComments, parsedComments_written finds closed noNull, blockBodies_commentsBehind]

end

/-! Pieces that are scanned. -/

/-- Where the comments among lexemes stand that follow a text. -/
def spansOf (before : List Char) : List Lexeme → List Span
  | [] => []
  | l :: ls =>
    (if l.kind.isSome then [spanBehind before l.chars] else []) ++ spansOf (before ++ l.chars) ls

theorem spans_nodesBehind (before : List Char) (ls : List Lexeme) :
    ((nodesBehind before ls).flatMap SyntaxNode.comments).map SyntaxNode.span =
      spansOf before ls := by
  induction ls generalizing before with
  | nil => rfl
  | cons l ls ih =>
    rw [nodesBehind, List.flatMap_cons, List.map_append, ih, spansOf]
    have same := isComment_nodeBehind before l
    cases kind : l.kind with
    | none =>
      rw [kind] at same
      rw [SyntaxNode.comments_of_not same]
      rfl
    | some k =>
      rw [kind] at same
      rw [SyntaxNode.comments_of_isComment same]
      rfl

variable {s : ScanState} {rest : List Char}

/-- What is read is a comment or not, and what follows it is told apart by the text before. -/
theorem spansOf_of_read {c : Char} {more : List Char} {kind : Option CommentKind}
    {next : ScanState} (h : read s c (more ++ rest) = ⟨kind, more.length, next⟩)
    (before : List Char) :
    spansOf before (lexemesFrom s (c :: (more ++ rest))) =
      (if kind.isSome then [spanBehind before (c :: more)] else []) ++
        spansOf (before ++ c :: more) (lexemesFrom next rest) := by
  rw [lexemesFrom_of_read h, spansOf]

theorem spansOf_of_read_alone {c : Char} {next : ScanState} (h : read s c rest = ⟨none, 0, next⟩)
    (before : List Char) :
    spansOf before (lexemesFrom s (c :: rest)) =
      spansOf (before ++ [c]) (lexemesFrom next rest) := by
  have alone : read s c ([] ++ rest) = ⟨none, ([] : List Char).length, next⟩ := h
  exact spansOf_of_read alone before

/-- A closed piece is read as the comment that it is, and behind it a statement may begin. -/
theorem spansOf_piece (h : AtStatement s) {p : Piece} (closed : p.IsClosed) (rest : List Char)
    (ends : ∀ c ∈ rest.head?, c = '\n') (before : List Char) :
    ∃ next, AtStatement next ∧ spansOf before (lexemesFrom s (p.text.toList ++ rest)) =
      (if p.isComment then [spanBehind before p.text.toList] else []) ++
        spansOf (before ++ p.text.toList) (lexemesFrom next rest) := by
  cases p with
  | blockComment body =>
    have whole : (Piece.blockComment body).text.toList =
        '/' :: '*' :: (body.toList ++ ['*', '/']) := by
      simp [Piece.text]
    have reads : read s '/' ('*' :: (body.toList ++ ['*', '/']) ++ rest) =
        ⟨some .block, ('*' :: (body.toList ++ ['*', '/'])).length, s⟩ := by
      simpa using read_blockComment h.allowsComments closed rest
    refine ⟨s, h, ?_⟩
    rw [whole, List.cons_append, spansOf_of_read reads]
    rfl
  | lineComment body =>
    have whole : (Piece.lineComment body).text.toList = '/' :: '/' :: body.toList := by
      simp [Piece.text]
    have inside : ∀ c ∈ body.toList, endsLine c = false := by
      intro c hc
      obtain ⟨feed, carriage, separator, paragraph⟩ := closed c hc
      simp [endsLine, feed, carriage, separator, paragraph]
    have reads : read s '/' ('/' :: body.toList ++ rest) =
        ⟨some .line, ('/' :: body.toList).length, s⟩ := by
      refine read_lineComment h.allowsComments inside ?_
      intro c hc
      rw [ends c hc]
      rfl
    refine ⟨s, h, ?_⟩
    rw [whole, List.cons_append, spansOf_of_read reads]
    rfl
  | statement content =>
    have whole : (Piece.statement content).text.toList =
        '"' :: (content.toList ++ ['"']) ++ [';'] := by
      simp [Piece.text]
    have reads : read s '"' (content.toList ++ ['"'] ++ ';' :: rest) =
        ⟨none, (content.toList ++ ['"']).length, s.after .operator⟩ := by
      simpa using read_string h closed (';' :: rest)
    -- Behind a string an operator is expected, until the semicolon ends the statement.
    have semicolon := read_semicolon (s := s.after .operator) h.contexts rest
    refine ⟨{ (s.after .operator).after .statement with bodyAhead := false }, ⟨h.contexts, rfl⟩, ?_⟩
    rw [whole, List.append_assoc, List.cons_append, List.singleton_append, spansOf_of_read reads,
      spansOf_of_read_alone semicolon, List.append_assoc]
    rfl

/-- A script of closed pieces is scanned as the comments that the pieces are. -/
theorem spansOf_pieces {ps : List Piece} (h : AtStatement s) (closed : ∀ p ∈ ps, p.IsClosed)
    (before : List Char) :
    spansOf before (lexemesFrom s (['\n'].intercalate (ps.map fun p => p.text.toList))) =
      spansBehind before ps := by
  -- The state is any where a statement may begin, for a line feed changes what it remembers.
  induction ps generalizing s before with
  | nil =>
    rw [List.map_nil, List.intercalate_nil, lexemesFrom]
    rfl
  | cons p ps ih =>
    have hp : p.IsClosed := closed p (by simp)
    have hps : ∀ q ∈ ps, q.IsClosed := fun q hq => closed q (by simp [hq])
    rw [spansBehind]
    cases ps with
    | nil =>
      have alone : ['\n'].intercalate ([p].map fun p => p.text.toList) = p.text.toList ++ [] := by
        simp
      obtain ⟨next, -, reads⟩ := spansOf_piece h hp [] (by simp) before
      rw [alone, reads, lexemesFrom, spansOf, spansBehind]
    | cons q ps =>
      obtain ⟨next, at_next, reads⟩ := spansOf_piece h hp
        ('\n' :: ['\n'].intercalate ((q :: ps).map fun p => p.text.toList)) (by simp) before
      have broken : AtStatement (next.afterGap '\n') := ⟨at_next.contexts, at_next.expects⟩
      rw [intercalate_pieces, reads, spansOf_of_read_alone (read_lineFeed at_next.contexts _),
        ih broken hps]

/-- The scanner finds the comments of scripts that are put together from closed pieces. -/
theorem findsComments_scannedTree : FindsComments scannedTree := by
  intro ps closed _
  rw [SyntaxNode.comments_of_not rfl, children_scannedTree, spans_nodesBehind, lexemes,
    toList_written]
  exact spansOf_pieces ⟨rfl, rfl⟩ closed []

end TagOutline.Script
