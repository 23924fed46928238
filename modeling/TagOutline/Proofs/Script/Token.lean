import Mathlib.Data.List.Chain
import TagOutline.Proofs.Script.Comment
import TagOutline.Script.Tree

/-!
# The written form of comments

The grammar of comments as tokens. A token is a comment with its marks around it: what stands
between the marks of a block comment goes on behind its stars with something else than a slash, so
no closing mark is in it, whatever stars and slashes it is made of. Taking the marks off gives the
comment back.
-/

namespace TagOutline.Script

/-- What stands behind the opening mark of a block comment up to the slash that ends it: characters
and then stars, over and over, with neither a star nor a slash behind the stars. -/
inductive IsStarred : List Char → Prop where
  | last (cs : List Char) (plain : '*' ∉ cs) (n : Nat) :
      IsStarred (cs ++ List.replicate (n + 1) '*')
  | more (cs : List Char) {ds : List Char} {d : Char} (plain : '*' ∉ cs) (n : Nat) (star : d ≠ '*')
      (slash : d ≠ '/') (others : IsStarred ds) :
      IsStarred (cs ++ (List.replicate (n + 1) '*' ++ d :: ds))

/-- A comment as a token of the grammar. -/
inductive IsToken : List Char → Prop where
  | line {cs : List Char}
      (inside : ∀ c ∈ cs, c ≠ '\n' ∧ c ≠ '\r' ∧ c ≠ '\u2028' ∧ c ≠ '\u2029') :
      IsToken ('/' :: '/' :: cs)
  | block {cs : List Char} (starred : IsStarred cs) : IsToken ('/' :: '*' :: (cs ++ ['/']))

theorem IsToken.ne_nil {cs : List Char} (h : IsToken cs) : cs ≠ [] := by
  cases h <;> simp

/-- No slash follows a star. -/
def IsUnclosed (cs : List Char) : Prop :=
  cs.IsChain fun c d => ¬ (c = '*' ∧ d = '/')

variable {c : Char} {cs ds : List Char}

theorem isUnclosed_iff : IsUnclosed cs ↔ ¬ ['*', '/'] <:+: cs := by
  rw [IsUnclosed, List.isChain_iff_forall_rel_of_append_cons_cons]
  constructor
  · rintro h ⟨before, after, whole⟩
    have whole' : cs = before ++ '*' :: '/' :: after := by simp [← whole]
    exact h whole' ⟨rfl, rfl⟩
  · rintro h c d before after whole ⟨rfl, rfl⟩
    exact h ⟨before, after, by rw [whole]; simp⟩

theorem isUnclosed_cons :
    IsUnclosed (c :: cs) ↔ (∀ d ∈ cs.head?, ¬ (c = '*' ∧ d = '/')) ∧ IsUnclosed cs :=
  List.isChain_cons

theorem IsUnclosed.append_of_plain (h : IsUnclosed ds) (plain : '*' ∉ cs) :
    IsUnclosed (cs ++ ds) := by
  induction cs with
  | nil => exact h
  | cons c cs ih =>
    rw [List.mem_cons, not_or] at plain
    exact isUnclosed_cons.mpr ⟨fun d _ closes => plain.1 closes.1.symm, ih plain.2⟩

theorem IsUnclosed.append_of_stars (h : IsUnclosed ds) (goesOn : ∀ d ∈ ds.head?, d ≠ '/')
    (n : Nat) : IsUnclosed (List.replicate n '*' ++ ds) := by
  induction n with
  | zero => exact h
  | succ n ih =>
    refine isUnclosed_cons.mpr ⟨?_, ih⟩
    rintro d hd ⟨-, rfl⟩
    cases n with
    | zero => exact goesOn '/' hd rfl
    | succ n => cases hd

theorem IsStarred.isUnclosed (h : IsStarred cs) : IsUnclosed cs := by
  induction h with
  | last cs plain n =>
    have stars : IsUnclosed (List.replicate (n + 1) '*' ++ []) :=
      IsUnclosed.append_of_stars List.IsChain.nil (by simp) _
    rw [List.append_nil] at stars
    exact stars.append_of_plain plain
  | more cs plain n star slash others ih =>
    have behind := isUnclosed_cons.mpr ⟨fun d _ closes => star closes.1, ih⟩
    have stars := behind.append_of_stars (by simpa using slash) (n + 1)
    exact stars.append_of_plain plain

theorem IsStarred.exists_eq_append (h : IsStarred cs) : ∃ body, cs = body ++ ['*'] := by
  induction h with
  | last cs plain n => exact ⟨cs ++ List.replicate n '*', by simp [List.replicate_succ']⟩
  | @more cs ds d plain n star slash others ih =>
    obtain ⟨body, rfl⟩ := ih
    exact ⟨cs ++ (List.replicate (n + 1) '*' ++ d :: body), by simp⟩

theorem IsStarred.cons (h : IsStarred cs) (star : c ≠ '*') : IsStarred (c :: cs) := by
  cases h with
  | last cs plain n => exact .last (c :: cs) (by simp [plain, Ne.symm star]) n
  | @more cs ds d plain n star' slash others =>
    exact .more (c :: cs) (by simp [plain, Ne.symm star]) n star' slash others

theorem IsStarred.of_cons (h : IsStarred (c :: cs)) (star : c ≠ '*') : IsStarred cs := by
  generalize whole : c :: cs = ds at h
  cases h with
  | last ds plain n =>
    cases ds with
    | nil => exact absurd (List.cons.inj whole).1 star
    | cons d ds =>
      rw [(List.cons.inj whole).2]
      exact .last ds (fun h => plain (List.mem_cons_of_mem d h)) n
  | @more ds es d plain n star' slash others =>
    cases ds with
    | nil => exact absurd (List.cons.inj whole).1 star
    | cons e ds =>
      rw [(List.cons.inj whole).2]
      exact .more ds (fun h => plain (List.mem_cons_of_mem e h)) n star' slash others

/-- One star more makes no difference behind a star. -/
theorem IsStarred.star_cons (h : IsStarred ('*' :: cs)) : IsStarred ('*' :: '*' :: cs) := by
  generalize whole : '*' :: cs = ds at h ⊢
  cases h with
  | last ds plain n =>
    cases ds with
    | nil => exact .last [] (by simp) (n + 1)
    | cons d ds => exact absurd (List.mem_cons.mpr (Or.inl (List.cons.inj whole).1)) plain
  | @more ds es d plain n star slash others =>
    cases ds with
    | nil => exact .more [] (by simp) (n + 1) star slash others
    | cons e ds => exact absurd (List.mem_cons.mpr (Or.inl (List.cons.inj whole).1)) plain

/-- Whatever holds no closing mark can stand between the marks. -/
theorem isStarred_of_isUnclosed (h : IsUnclosed cs) : IsStarred (cs ++ ['*']) := by
  induction cs with
  | nil => exact .last [] (by simp) 0
  | cons c cs ih =>
    obtain ⟨first, others⟩ := isUnclosed_cons.mp h
    have starred := ih others
    by_cases star : c = '*'
    · -- the star joins those that it stands before, or `d` goes on behind it
      subst star
      cases cs with
      | nil => exact .last [] (by simp) 1
      | cons d cs =>
        by_cases again : d = '*'
        · subst again
          exact starred.star_cons
        · have slash : d ≠ '/' := fun hd => first d rfl ⟨rfl, hd⟩
          exact .more [] (by simp) 0 again slash (starred.of_cons again)
    · exact starred.cons star

/-- A comment with its marks. -/
def Comment.piece (c : Comment) : Piece :=
  match c.kind with
  | .block => .blockComment c.body
  | .line => .lineComment c.body

theorem Comment.toList_piece_block (body : String) (line : Nat) :
    (Comment.piece ⟨.block, body, line⟩).text.toList =
      '/' :: '*' :: (body.toList ++ ['*'] ++ ['/']) := by
  simp [Comment.piece, Piece.text]

theorem Comment.toList_piece_line (body : String) (line : Nat) :
    (Comment.piece ⟨.line, body, line⟩).text.toList = '/' :: '/' :: body.toList := by
  simp [Comment.piece, Piece.text]

/-- The tokens are the comments with their marks, where nothing in a comment ends it. -/
theorem isToken_iff (line : Nat) : IsToken cs ↔
    ∃ c : Comment, c.line = line ∧ c.piece.IsClosed ∧ c.piece.text.toList = cs := by
  constructor
  · intro h
    cases h with
    | @line cs inside =>
      refine ⟨⟨.line, String.ofList cs, line⟩, rfl, ?_, ?_⟩
      · simpa [Comment.piece, Piece.IsClosed] using inside
      · rw [Comment.toList_piece_line, String.toList_ofList]
    | block starred =>
      obtain ⟨body, rfl⟩ := starred.exists_eq_append
      have unclosed : IsUnclosed body := starred.isUnclosed.left_of_append
      refine ⟨⟨.block, String.ofList body, line⟩, rfl, ?_, ?_⟩
      · show ¬ ['*', '/'] <:+: (String.ofList body).toList
        rw [String.toList_ofList]
        exact isUnclosed_iff.mp unclosed
      · rw [Comment.toList_piece_block, String.toList_ofList]
  · rintro ⟨⟨kind, body, _⟩, -, closed, rfl⟩
    cases kind with
    | line =>
      rw [Comment.toList_piece_line]
      exact .line closed
    | block =>
      rw [Comment.toList_piece_block]
      exact .block (isStarred_of_isUnclosed (isUnclosed_iff.mpr closed))

/-- What stands between the marks is the body. -/
theorem bodyOf_piece (c : Comment) : bodyOf c.kind c.piece.text.toList = c.body.toList := by
  obtain ⟨kind, body, line⟩ := c
  cases kind with
  | line => simp [Comment.toList_piece_line, bodyOf]
  | block => simp [Comment.toList_piece_block, bodyOf]

/-- A comment with its marks is read as what it is. -/
theorem commentOf_piece (c : Comment) : commentOf c.piece.text.toList c.line = c := by
  have body := bodyOf_piece c
  obtain ⟨kind, text, line⟩ := c
  cases kind with
  | line =>
    have notBlock : ['/', '*'].isPrefixOf (Comment.piece ⟨.line, text, line⟩).text.toList = false := by
      rw [Comment.toList_piece_line]
      rfl
    rw [commentOf, notBlock, if_neg (by simp), body, String.ofList_toList]
  | block =>
    have opens : ['/', '*'].isPrefixOf (Comment.piece ⟨.block, text, line⟩).text.toList = true := by
      rw [Comment.toList_piece_block]
      rfl
    have closes : ['*', '/'].isSuffixOf (Comment.piece ⟨.block, text, line⟩).text.toList = true := by
      rw [List.isSuffixOf_iff_suffix, Comment.toList_piece_block]
      exact ⟨'/' :: '*' :: text.toList, by simp⟩
    rw [commentOf, if_pos opens, if_pos closes, body, String.ofList_toList]

end TagOutline.Script
