import AsmLens.Column
import AsmLens.Lexeme
import AsmLens.Text.Lines
import AsmLens.Token
import AsmLens.Vocabulary

/-!
The tokens of a line and of a document. A line's lexemes are given their columns and categories; the
blanks vanish, and the other characters that belong to no token are reported as strays. A document
is lexed line by line, so nothing on one line can change the tokens of another.
-/

namespace AsmLens

/-- A character that was passed over: its line, and its byte offset there. -/
structure Stray where
  line : Nat
  offset : Nat
  deriving DecidableEq, Repr

/-- What the lexer finds, in the order of the text. -/
structure Scanned where
  tokens : List Token := []
  strays : List Stray := []
  deriving DecidableEq, Repr

namespace Scanned

/-- One finding after another. -/
def append (a b : Scanned) : Scanned := ⟨a.tokens ++ b.tokens, a.strays ++ b.strays⟩

end Scanned

/-- The category of the token that a lexeme makes, if it makes one. -/
def Lexeme.category (lexeme : Lexeme) : Option Category :=
  match lexeme.kind with
  | .comment => some .comment
  | .number => some .number
  | .word => some (Vocabulary.categoryOf (String.ofList lexeme.text))
  | .operator => some .operator
  | .blank => none
  | .stray => none

namespace Lexer

/-- Gives the lexemes from a byte offset on their places in the line. -/
def place (line : Nat) (cursor : ColumnCursor) (offset : Nat) : List Lexeme → Checked Scanned
  | [] => .ok {}
  | lexeme :: more =>
      match lexeme.category with
      | some category => do
          let (column, cursor) ← cursor.moveTo offset
          let found ← place line cursor (offset + Text.byteCount lexeme.text) more
          let token : Token := { line, column, text := String.ofList lexeme.text, category }
          return { found with tokens := token :: found.tokens }
      | none => do
          let found ← place line cursor (offset + Text.byteCount lexeme.text) more
          if lexeme.kind = .stray then
            return { found with strays := ⟨line, offset⟩ :: found.strays }
          else
            return found

/-- The tokens and the strays of one line, which is given without its terminator. -/
def line (number : Nat) (text : List Char) : Checked Scanned :=
  place number (.ofLine text) 0 (Lexeme.scan text)

/-- Lexes lines in order, the first of them under the number given. The number of the next line is
drawn before a line is read, and once more where no line is left. -/
def linesFrom (number : Nat) (lines : List (List Char)) : Checked Scanned := do
  let next ← Word.add .tooManyLines number 1
  match lines with
  | [] => return {}
  | text :: more =>
      let here ← line number text
      let later ← linesFrom next more
      return here.append later

/-- The tokens and the strays of a document, in the order of their positions. -/
def document (source : List Char) : Checked Scanned := linesFrom 0 (Text.lines source)

end Lexer

end AsmLens
