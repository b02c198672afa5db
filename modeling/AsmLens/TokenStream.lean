import AsmLens.Token

/-!
The relative form in which tokens are sent. A token becomes five integers: the lines and the columns
from the token before it, its length, its category and its modifiers. Where the line advances the
column counts from the start of the line. `decode` adds the steps up again; it takes whole tuples
and leaves an incomplete last one alone.
-/

namespace AsmLens

/-- A token as it can be read off a stream. -/
structure PlacedToken where
  line : Nat
  column : Nat
  length : Nat
  category : Nat
  modifiers : Nat
  deriving DecidableEq, Repr

namespace TokenStream

/-- The integers of one token. -/
def stride : Nat := 5

/-- Encodes the tokens that follow a token at the given line and column. -/
def encodeFrom (line column : Nat) : List Token → Checked (List Nat)
  | [] => .ok []
  | t :: more => do
      let deltaLine ← Word.sub .tokensOutOfOrder t.line line
      let deltaColumn ← Word.sub .tokensOutOfOrder t.column (if 0 < deltaLine then 0 else column)
      let rest ← encodeFrom t.line t.column more
      return deltaLine :: deltaColumn :: t.length :: t.category.index :: t.modifiers.bits :: rest

/-- The stream of an ordered token list. -/
def encode (tokens : List Token) : Checked (List Nat) := encodeFrom 0 0 tokens

/-- Decodes the tuples that follow a token at the given line and column. -/
def decodeFrom (line column : Nat) : List Nat → Checked (List PlacedToken)
  | deltaLine :: deltaColumn :: length :: category :: modifiers :: more => do
      let newLine ← Word.add .streamTooLong line deltaLine
      let newColumn ← Word.add .streamTooLong (if 0 < deltaLine then 0 else column) deltaColumn
      let rest ← decodeFrom newLine newColumn more
      return ⟨newLine, newColumn, length, category, modifiers⟩ :: rest
  | _ => .ok []

/-- The tokens of a stream, in stream order. -/
def decode (data : List Nat) : Checked (List PlacedToken) := decodeFrom 0 0 data

end TokenStream

end AsmLens
