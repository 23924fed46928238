import TagOutline.Text.Blank

/-!
# Lexical elements of scripts

How far the lexical elements of a JavaScript text reach: comments, strings, templates, regular
expressions and words. Each function here takes what follows the first characters of an element and
counts the characters that still belong to it. Texts need not be correct programs; an element that
is not closed ends where its line ends, or where the text does.
-/

namespace TagOutline.Script

/-- A character that ends a line comment. -/
def endsLine (c : Char) : Bool :=
  c = '\n' || c = '\r' || c = '\u2028' || c = '\u2029'

/-- A character that separates words and is nothing by itself. -/
def isGap (c : Char) : Bool :=
  Text.isBlank c || c = '\ufeff' || c = '\u200b' || c = '\u2060'

/-- A character of names and numbers. -/
def isWordChar (c : Char) : Bool :=
  c.isAlphanum || c = '_' || c = '$' || c = '\\' || c = '#' || (0x80 ≤ c.toNat && !isGap c)

/-- The rest of a block comment after its opening mark: up to the first closing mark, which belongs
to it. Without a closing mark there is no comment. -/
def blockLength? : List Char → Option Nat
  | [] => none
  | '*' :: '/' :: _ => some 2
  | _ :: cs => (blockLength? cs).map (· + 1)

/-- The rest of a line comment after its opening mark. -/
def lineLength (cs : List Char) : Nat :=
  (cs.takeWhile fun c => !endsLine c).length

/-- The rest of the line up to a line feed or a Unicode separator. -/
def markupCommentLength (cs : List Char) : Nat :=
  (cs.takeWhile fun c => !(c = '\n' || c = '\u2028' || c = '\u2029')).length

/-- The rest of the line up to a line feed. -/
def toLineFeed (cs : List Char) : Nat :=
  (cs.takeWhile (· ≠ '\n')).length

/-- The rest of a string after its opening quote. A backslash keeps the next character from ending
the string; the end of the line ends it all the same, unless a backslash stands before. -/
def stringLength (quote : Char) : List Char → Nat
  | [] => 0
  | ['\\'] => 1
  | '\\' :: '\r' :: '\n' :: cs => stringLength quote cs + 3
  | '\\' :: _ :: cs => stringLength quote cs + 2
  | c :: cs =>
    if c = quote then 1
    else if c = '\n' ∨ c = '\r' then 0
    else stringLength quote cs + 1

/-- The rest of a quoted attribute in markup, which may go over several lines. -/
def attributeLength (quote : Char) (cs : List Char) : Nat :=
  let inside := (cs.takeWhile (· ≠ quote)).length
  if inside < cs.length then inside + 1 else inside

/-- The part of a template up to its end or its next substitution. -/
def templateLength : List Char → Nat
  | [] => 0
  | '\x60' :: _ => 0
  | '$' :: '\x7b' :: _ => 0
  | '\\' :: _ :: cs => templateLength cs + 2
  | _ :: cs => templateLength cs + 1

/-- The rest of a character class of a regular expression after its opening bracket, up to the
closing one. A class does not go over the end of a line. -/
def classLength? : List Char → Option Nat
  | [] => none
  | ['\\'] => none
  | '\\' :: c :: cs => if c = '\n' then none else (classLength? cs).map (· + 2)
  | c :: cs =>
    if c = ']' then some 1
    else if c = '\n' then none
    else (classLength? cs).map (· + 1)

/-- The pattern of a regular expression after its opening slash, up to the closing one or to where
it cannot go on. -/
def patternLength : List Char → Nat
  | [] => 0
  | ['\\'] => 0
  | '\\' :: c :: cs => if c = '\n' then 0 else patternLength cs + 2
  | c :: cs =>
    if c = '/' ∨ c = '\n' then 0
    else if c = '[' then
      match classLength? cs with
      | none => 0
      | some n => patternLength (cs.drop n) + n + 1
    else patternLength cs + 1
  termination_by cs => cs.length
  decreasing_by all_goals simp only [List.length_drop, List.length_cons]; omega

/-- The rest of a regular expression after its opening slash, with the closing slash if there is
one. -/
def regexLength (cs : List Char) : Nat :=
  let n := patternLength cs
  match n, cs.drop n with
  | _ + 1, '/' :: _ => n + 1
  | _, _ => n

/-- The rest of a word after its first character. -/
def wordLength (cs : List Char) : Nat :=
  (cs.takeWhile isWordChar).length

/-- The rest of a number after its first character. -/
def numberLength (cs : List Char) : Nat :=
  (cs.takeWhile fun c => isWordChar c || c = '.').length

/-- Text between the tags of markup, up to the next tag or the next expression. -/
def markupTextLength (cs : List Char) : Nat :=
  (cs.takeWhile fun c => !(c = '<' || c = '\x7b')).length

/-- Whether what follows a `<` can be the rest of a tag. -/
def startsTag (cs : List Char) : Bool :=
  match cs.dropWhile isGap with
  | [] => false
  | c :: _ => c = '>' || (isWordChar c && !c.isDigit)

end TagOutline.Script
