/-!
The cut of a line into lexemes. `Lexeme.scan` reads from the left and always takes as much as it
can: a run of digits, a word, a comment to the end of its line, or one character. What starts no
token is cut out too, so that the lexemes follow each other without a gap; only what comes after a
comment is left unread.
-/

namespace AsmLens

/-- What a lexeme is, before any word is looked up. -/
inductive LexemeKind where
  /-- From a semicolon to the end of the line. -/
  | comment
  /-- A run of digits. -/
  | number
  /-- A letter or an underscore, with the letters, digits and underscores after it. -/
  | word
  /-- A bracket or a colon. -/
  | operator
  /-- A space, a tab, a carriage return or a form feed. -/
  | blank
  /-- Any other character; it belongs to no token. -/
  | stray
  deriving DecidableEq, Repr

/-- A stretch of a line. -/
structure Lexeme where
  kind : LexemeKind
  text : List Char
  deriving DecidableEq, Repr

namespace Lexeme

/-- ASCII digits alone make numbers. -/
def isDigit (c : Char) : Bool := c.isDigit

/-- ASCII letters and the underscore open words. -/
def isWordStart (c : Char) : Bool := c.isAlpha || c = '_'

/-- ASCII letters, digits and the underscore carry words on. -/
def isWordPart (c : Char) : Bool := c.isAlphanum || c = '_'

def isOperator (c : Char) : Bool := c = '[' || c = ']' || c = ':'

/-- The characters that separate tokens without being remarked on. -/
def isBlank (c : Char) : Bool := c = ' ' || c = '\t' || c = '\r' || c = '\x0c'

/-- The lexemes of a line. A comment ends them: it takes all but what a line break holds off. -/
def scan : List Char → List Lexeme
  | [] => []
  | c :: rest =>
      if c = ';' then [⟨.comment, c :: rest.takeWhile (· ≠ '\n')⟩]
      else if isDigit c then
        ⟨.number, c :: rest.takeWhile isDigit⟩ :: scan (rest.dropWhile isDigit)
      else if isWordStart c then
        ⟨.word, c :: rest.takeWhile isWordPart⟩ :: scan (rest.dropWhile isWordPart)
      else if isOperator c then ⟨.operator, [c]⟩ :: scan rest
      else if isBlank c then ⟨.blank, [c]⟩ :: scan rest
      else ⟨.stray, [c]⟩ :: scan rest
termination_by line => line.length
decreasing_by
  all_goals
    have hdigits := (List.dropWhile_sublist isDigit (l := rest)).length_le
    have hword := (List.dropWhile_sublist isWordPart (l := rest)).length_le
    simp only [List.length_cons]
    omega

end Lexeme

end AsmLens
