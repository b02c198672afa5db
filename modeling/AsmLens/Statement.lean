import AsmLens.Token

/-!
A document as one statement per line. `Statement.ofTokens` cuts an ordered token list at its line
breaks and sets each line's comment aside; blank lines and lines of comment alone give empty
statements, so the statement of a line is found under its number.
-/

namespace AsmLens

/-- The tokens of one line, its comment left out. -/
structure Statement where
  line : Nat
  /-- The place of the first token in the document's token list, or the place where it would be. -/
  offset : Nat
  tokens : List Token
  deriving DecidableEq, Repr

namespace Statement

/-- The token that tells what the statement does. -/
def head? (i : Statement) : Option Token := i.tokens.head?

/-- The tokens of a line without the comment that ends it. -/
def body (line : List Token) : List Token :=
  match line.getLast? with
  | some last => if last.category = .comment then line.dropLast else line
  | none => line

/-- Cuts `count` lines off a token list, the first of them numbered `line` and starting at `index`
in the document. No comment may stand inside a line, and no token may be left over. -/
def ofTokensFrom (line index : Nat) (tokens : List Token) : Nat → Checked (List Statement)
  | 0 => if tokens.isEmpty then .ok [] else .error .tokenPastLastLine
  | count + 1 =>
      let here := tokens.takeWhile (·.line = line)
      if (body here).any (·.category = .comment) then .error .commentBeforeLineEnd
      else do
        let later ←
          ofTokensFrom (line + 1) (index + here.length) (tokens.dropWhile (·.line = line)) count
        return ⟨line, index, body here⟩ :: later

/-- The statements of a document of `lineCount` lines, one to the line. -/
def ofTokens (tokens : List Token) (lineCount : Nat) : Checked (List Statement) :=
  ofTokensFrom 0 0 tokens lineCount

end Statement

end AsmLens
