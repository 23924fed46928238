import TagOutline.Script.Comment
import TagOutline.Script.Lexeme

/-!
# Scanning scripts

A JavaScript text cut into lexemes, of which comments are the ones that matter. What begins with a
comment's mark is a comment only outside of strings, templates, regular expressions and the text of
markup, so the scanner keeps track of what is open and of what may come next: a slash opens a
regular expression where an operand is expected and divides elsewhere, and likewise `<` opens
markup or compares. It knows no more of the grammar than that, so there are scripts whose comments
it does not find; a parser finds them.

The lexemes put one after another are the text again, whatever the text is.
-/

namespace TagOutline.Script

/-- What parentheses are for. -/
inductive ParensUse where
  | plain
  /-- A condition, which a statement follows. -/
  | condition
  /-- The parameters of a function that is an operand, which its body follows. -/
  | parameters
  deriving DecidableEq, Repr

/-- What is open around a place in a script. -/
inductive Context where
  /-- Braces around statements or the members of a class. -/
  | block
  /-- Braces around the body of a function or a class that is itself an operand. -/
  | body
  /-- Braces around the fields of an object. -/
  | object
  | parens (use : ParensUse)
  | brackets
  /-- The text of a template. -/
  | template
  /-- A substitution in a template. -/
  | substitution
  /-- A tag of markup, which opens an element. -/
  | openingTag
  /-- A tag of markup, which closes an element. -/
  | closingTag
  /-- What stands between the two tags of an element. -/
  | element
  /-- Braces around an expression in markup. -/
  | expression
  /-- The part of a conditional between its question mark and its colon. -/
  | choice
  deriving DecidableEq, Repr

/-- What may come next. -/
inductive Expectation where
  | statement
  | operand
  /-- An operator, or the end of an operand. -/
  | operator
  /-- The parentheses of a condition. -/
  | condition
  /-- The body of an arrow function: an operand, or braces around statements. -/
  | arrowBody
  deriving DecidableEq, Repr

/-- The state of a scanner. -/
structure ScanState where
  contexts : List Context
  expects : Expectation
  /-- A point was read last, so that a word is the name of a member. -/
  afterPoint : Bool
  /-- A line has ended since the last lexeme that is no gap and no comment. -/
  afterBreak : Bool
  /-- A function or a class that is an operand has begun, and its body is still to come. -/
  bodyAhead : Bool
  /-- Nothing but comments and gaps was read. -/
  atStart : Bool
  deriving DecidableEq, Repr

/-- A piece of a script: a comment of some kind, or anything else. -/
structure Lexeme where
  kind : Option CommentKind
  chars : List Char
  deriving DecidableEq, Repr

/-- What a scanner reads at a place: a lexeme of one character and `more`, and the state after
it. -/
structure Reading where
  kind : Option CommentKind
  more : Nat
  state : ScanState

/-- The words that begin a function or a class. -/
def bodyWords : List String :=
  ["function", "class"]

/-- The words after which an operand comes, or a name or a pattern that is declared. -/
def operandWords : List String :=
  ["return", "typeof", "case", "in", "new", "delete", "void", "throw", "instanceof", "await",
    "yield", "default", "extends", "let", "const", "var"]

def statementWords : List String :=
  ["else", "do", "try", "finally"]

/-- The words after which a condition comes. -/
def conditionWords : List String :=
  ["if", "while", "for", "with"]

namespace ScanState

/-- The state in front of a script. -/
def initial : ScanState :=
  { contexts := []
    expects := .statement
    afterPoint := false
    afterBreak := false
    bodyAhead := false
    atStart := true }

/-- The state after a lexeme that is no gap and no comment. -/
def after (s : ScanState) (expects : Expectation) : ScanState :=
  { s with expects, afterPoint := false, afterBreak := false, atStart := false }

def enter (s : ScanState) (context : Context) (expects : Expectation) : ScanState :=
  { s.after expects with contexts := context :: s.contexts }

/-- Goes on in other contexts. -/
def leaveTo (s : ScanState) (contexts : List Context) (expects : Expectation) : ScanState :=
  { s.after expects with contexts }

def allowsComments (s : ScanState) : Bool :=
  match s.contexts with
  | .template :: _ => false
  | .element :: _ => false
  | _ => true

/-- Gives up conditionals whose colon has not come. -/
def withoutChoice (s : ScanState) : ScanState :=
  { s with contexts := s.contexts.dropWhile (· = .choice) }

/-- The contexts after a closing brace, and what comes next. What is still open inside the braces is
given up. -/
def closeBrace : List Context → Option (List Context × Expectation)
  | .block :: outer => some (outer, .statement)
  | .body :: outer => some (outer, .operator)
  | .object :: outer => some (outer, .operator)
  | .substitution :: outer => some (outer, .operator)
  | .expression :: outer => some (outer, .operator)
  | .parens _ :: outer => closeBrace outer
  | .brackets :: outer => closeBrace outer
  | .choice :: outer => closeBrace outer
  | _ => none

def openParens (s : ScanState) : ScanState :=
  let use : ParensUse :=
    if s.expects = .condition then .condition
    else if s.bodyAhead then .parameters
    else .plain
  { s.enter (.parens use) .operand with bodyAhead := false }

def closeParens (s : ScanState) : ScanState :=
  match s.withoutChoice.contexts with
  | .parens .plain :: outer => s.leaveTo outer .operator
  | .parens .condition :: outer => s.leaveTo outer .statement
  | .parens .parameters :: outer => { s.leaveTo outer .operator with bodyAhead := true }
  | _ => s.after .operator

def openBrace (s : ScanState) : ScanState :=
  match s.expects with
  | .operand => s.enter .object .operand
  | .arrowBody => s.enter .body .statement
  | _ =>
    if s.bodyAhead then { s.enter .body .statement with bodyAhead := false }
    else s.enter .block .statement

def afterGap (s : ScanState) (c : Char) : ScanState :=
  { s with afterBreak := s.afterBreak || c = '\n' || c = '\u2028' || c = '\u2029' }

/-- The state in front of a character. Two plus or minus signs after the end of a line do not
belong to the operand before it, so a statement ends there. -/
def before (s : ScanState) (c : Char) (rest : List Char) : ScanState :=
  if s.expects = .operator ∧ s.afterBreak ∧ (c = '+' ∨ c = '-') ∧ rest.head? = some c then
    { s with expects := .statement }
  else s

/-- The state after a word. -/
def afterWord (s : ScanState) (word : String) (expects : Expectation) : ScanState :=
  if s.expects ≠ .operator ∧ s.expects ≠ .statement ∧ !s.afterPoint ∧ bodyWords.contains word then
    { s.after expects with bodyAhead := true }
  else s.after expects

def endElement (s : ScanState) (outer : List Context) : ScanState :=
  s.leaveTo outer .operator

end ScanState

/-- Whether a function begins on the same line, behind gaps. -/
def startsFunction (cs : List Char) : Bool :=
  let word := cs.dropWhile fun c => isGap c && !endsLine c
  "function".toList.isPrefixOf word && !((word.drop 8).head?.any isWordChar)

/-- What comes after a word that `rest` follows. `of` is a word of the language only behind what a
loop runs over, and `async` only in front of a function. -/
def expectedAfter (s : ScanState) (word : String) (rest : List Char) : Expectation :=
  if s.afterPoint then .operator
  else if s.expects = .condition ∧ word = "await" then .condition
  else if word = "of" then
    if s.expects = .operator ∧ s.contexts.head? = some (.parens .condition) then .operand
    else .operator
  else if word = "async" ∧ startsFunction rest then s.expects
  else if operandWords.contains word then .operand
  else if statementWords.contains word then .statement
  else if conditionWords.contains word then .condition
  else .operator

/-- The comment that begins with a character and what follows it. -/
def comment? (c : Char) (rest : List Char) : Option (CommentKind × Nat) :=
  match c, rest with
  | '/', '*' :: cs => (blockLength? cs).map fun n => (.block, n + 1)
  | '/', '/' :: cs => some (.line, lineLength cs + 1)
  | _, _ => none

/-- Reads in the text of a template. -/
def readTemplate (s : ScanState) (outer : List Context) (c : Char) (rest : List Char) : Reading :=
  if c = '\x60' then ⟨none, 0, s.leaveTo outer .operator⟩
  else
    match c, rest with
    | '$', '\x7b' :: _ => ⟨none, 1, s.enter .substitution .operand⟩
    | _, _ => ⟨none, templateLength (c :: rest) - 1, s⟩

/-- Reads between the tags of an element. -/
def readElement (s : ScanState) (c : Char) (rest : List Char) : Reading :=
  if c = '\x7b' then ⟨none, 0, s.enter .expression .operand⟩
  else
    match c, rest with
    | '<', '/' :: _ => ⟨none, 1, s.enter .closingTag .operand⟩
    | '<', _ => ⟨none, 0, s.enter .openingTag .operand⟩
    | _, _ => ⟨none, markupTextLength rest, s⟩

/-- Reads inside a tag. -/
def readTag (s : ScanState) (closing : Bool) (outer : List Context) (c : Char)
    (rest : List Char) : Reading :=
  if c = '\x7b' then ⟨none, 0, s.enter .expression .operand⟩
  else if c = '"' ∨ c = '\'' then ⟨none, attributeLength c rest, s⟩
  else if c = '<' then ⟨none, 0, s.enter .openingTag .operand⟩
  else if c = '>' then
    if closing then
      match outer with
      | .element :: outer => ⟨none, 0, s.endElement outer⟩
      | _ => ⟨none, 0, s.endElement outer⟩
    else ⟨none, 0, s.leaveTo (.element :: outer) .operand⟩
  else
    match c, rest with
    | '/', '>' :: _ => ⟨none, 1, s.endElement outer⟩
    | _, _ => ⟨none, 0, s⟩

/-- Reads a mark of the program that is no word, no string and no comment. -/
def readMark (s : ScanState) (c : Char) (rest : List Char) : Reading :=
  match c with
  | '(' => ⟨none, 0, s.openParens⟩
  | ')' => ⟨none, 0, s.closeParens⟩
  | '[' => ⟨none, 0, s.enter .brackets .operand⟩
  | ']' =>
    match s.withoutChoice.contexts with
    | .brackets :: outer => ⟨none, 0, s.leaveTo outer .operator⟩
    | _ => ⟨none, 0, s.after .operator⟩
  | '\x7b' => ⟨none, 0, s.openBrace⟩
  | '\x7d' =>
    match ScanState.closeBrace s.contexts with
    | some (outer, expects) => ⟨none, 0, s.leaveTo outer expects⟩
    | none => ⟨none, 0, s.after .statement⟩
  | ';' => ⟨none, 0, { s.withoutChoice.after .statement with bodyAhead := false }⟩
  | '?' =>
    match rest with
    | '?' :: _ => ⟨none, 1, s.after .operand⟩
    | '.' :: cs =>
      -- a point behind the question mark belongs to it, unless it begins a number
      if cs.head?.any Char.isDigit then ⟨none, 0, s.enter .choice .operand⟩
      else ⟨none, 1, { s.after .operand with afterPoint := true }⟩
    | _ => ⟨none, 0, s.enter .choice .operand⟩
  | ':' =>
    match s.contexts with
    | .choice :: outer => ⟨none, 0, s.leaveTo outer .operand⟩
    | [] => ⟨none, 0, s.after .statement⟩
    | .block :: _ => ⟨none, 0, s.after .statement⟩
    | .body :: _ => ⟨none, 0, s.after .statement⟩
    | _ => ⟨none, 0, s.after .operand⟩
  | '.' =>
    match rest with
    | '.' :: '.' :: _ => ⟨none, 2, s.after .operand⟩
    | _ => ⟨none, 0, { s.after .operand with afterPoint := true }⟩
  | _ =>
    match c, rest with
    | '=', '>' :: _ => ⟨none, 1, s.after .arrowBody⟩
    | '+', '+' :: _ => ⟨none, 1, s.after (if s.expects = .operator then .operator else .operand)⟩
    | '-', '-' :: _ => ⟨none, 1, s.after (if s.expects = .operator then .operator else .operand)⟩
    | _, _ => ⟨none, 0, s.after .operand⟩

/-- Whether a comment of the markup kind begins here. -/
def startsMarkupComment (c : Char) (rest : List Char) : Bool :=
  match c, rest with
  | '<', '!' :: '-' :: '-' :: _ => true
  | '-', '-' :: '>' :: _ => true
  | _, _ => false

/-- Whether a number that begins with a point begins here. -/
def startsFraction (c : Char) (rest : List Char) : Bool :=
  match c, rest with
  | '.', d :: _ => d.isDigit
  | _, _ => false

/-- Reads in the program itself, where no comment begins. -/
def readProgram (s : ScanState) (c : Char) (rest : List Char) : Reading :=
  let s := s.before c rest
  let operandNext := s.expects ≠ .operator
  if isGap c then ⟨none, 0, s.afterGap c⟩
  else if s.atStart ∧ c = '#' ∧ rest.head? = some '!' then
    ⟨none, toLineFeed rest, s.after .statement⟩
  else if operandNext ∧ startsMarkupComment c rest then ⟨none, markupCommentLength rest, s⟩
  else if c = '"' ∨ c = '\'' then ⟨none, stringLength c rest, s.after .operator⟩
  else if c = '\x60' then ⟨none, 0, s.enter .template .operand⟩
  else if c.isDigit ∨ (operandNext ∧ startsFraction c rest) then
    ⟨none, numberLength rest, s.after .operator⟩
  else if isWordChar c then
    let more := wordLength rest
    let word := String.ofList (c :: rest.take more)
    ⟨none, more, s.afterWord word (expectedAfter s word (rest.drop more))⟩
  else if c = '/' ∧ operandNext then ⟨none, regexLength rest, s.after .operator⟩
  else if c = '<' ∧ operandNext ∧ startsTag rest then ⟨none, 0, s.enter .openingTag .operand⟩
  else readMark s c rest

/-- Reads a lexeme that is no comment. -/
def readOther (s : ScanState) (c : Char) (rest : List Char) : Reading :=
  match s.contexts with
  | .template :: outer => readTemplate s outer c rest
  | .element :: _ => readElement s c rest
  | .openingTag :: outer => readTag s false outer c rest
  | .closingTag :: outer => readTag s true outer c rest
  | _ => readProgram s c rest

/-- Reads a lexeme. -/
def read (s : ScanState) (c : Char) (rest : List Char) : Reading :=
  match (if s.allowsComments then comment? c rest else none) with
  | some (kind, more) => ⟨some kind, more, s⟩
  | none => readOther s c rest

/-- The lexemes of a text that is scanned from a state on. -/
def lexemesFrom (s : ScanState) : List Char → List Lexeme
  | [] => []
  | c :: rest =>
    let r := read s c rest
    ⟨r.kind, c :: rest.take r.more⟩ :: lexemesFrom r.state (rest.drop r.more)
  termination_by cs => cs.length
  decreasing_by simp only [List.length_drop, List.length_cons]; omega

def lexemes (cs : List Char) : List Lexeme :=
  lexemesFrom .initial cs

/-- Nothing is lost by scanning a text. -/
theorem flatMap_chars_lexemesFrom (s : ScanState) (cs : List Char) :
    (lexemesFrom s cs).flatMap Lexeme.chars = cs := by
  fun_induction lexemesFrom s cs with
  | case1 => rfl
  | case2 s c rest r ih => simp [List.flatMap_cons, ih]

end TagOutline.Script
