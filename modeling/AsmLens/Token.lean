import AsmLens.Category
import AsmLens.Text.Units

/-!
Tokens and the places they take. A token lies on one line; its column and its length count UTF-16
code units. A span runs from the start of one token to the end of another, so every range that the
analysis reports is one that the lexer produced.
-/

namespace AsmLens

/-- A place in a document, both coordinates counted from zero. -/
structure Position where
  line : Nat
  column : Nat
  deriving DecidableEq, Repr

namespace Position

/-- Line first, then column. -/
def le (a b : Position) : Prop := a.line < b.line ∨ a.line = b.line ∧ a.column ≤ b.column

instance : LE Position := ⟨le⟩

instance (a b : Position) : Decidable (a ≤ b) :=
  inferInstanceAs (Decidable (a.line < b.line ∨ a.line = b.line ∧ a.column ≤ b.column))

theorem le_def {a b : Position} :
    a ≤ b ↔ a.line < b.line ∨ a.line = b.line ∧ a.column ≤ b.column := Iff.rfl

protected theorem le_refl (a : Position) : a ≤ a := Or.inr ⟨rfl, Nat.le_refl _⟩

protected theorem le_trans {a b c : Position} (hab : a ≤ b) (hbc : b ≤ c) : a ≤ c := by
  simp only [le_def] at *
  omega

protected theorem le_total (a b : Position) : a ≤ b ∨ b ≤ a := by
  simp only [le_def]
  omega

protected theorem le_antisymm {a b : Position} (hab : a ≤ b) (hba : b ≤ a) : a = b := by
  cases a
  cases b
  simp only [le_def, mk.injEq] at *
  omega

/-- The way editors show a position to people, both coordinates counted from one. -/
def render (p : Position) : String :=
  toString (p.line + 1) ++ ":" ++ toString (p.column + 1)

end Position

/-- One lexical unit of a document. -/
structure Token where
  line : Nat
  column : Nat
  text : String
  category : Category
  modifiers : Modifiers := .none
  deriving DecidableEq, Repr

namespace Token

/-- Length in UTF-16 code units. -/
def length (t : Token) : Nat := Text.width t.text.toList

/-- Whether the token spells nothing. -/
def isEmpty (t : Token) : Bool := t.text.toList.isEmpty

/-- Where the token starts. -/
def start (t : Token) : Position := ⟨t.line, t.column⟩

/-- The place just after the token. -/
def finish (t : Token) : Checked Position := do
  let column ← Word.add .endTooLarge t.column t.length
  return ⟨t.line, column⟩

/-- The colon that closes a label declaration. -/
def isColon (t : Token) : Bool := t.category = .operator && t.text = ":"

end Token

/-- The half-open range between two positions. -/
structure Span where
  start : Position
  finish : Position
  deriving DecidableEq, Repr

namespace Span

/-- From the start of `first` to the end of `last`, which does not start before it. -/
def ofTokens (first last : Token) : Checked Span :=
  if first.start ≤ last.start then do
    let finish ← last.finish
    return ⟨first.start, finish⟩
  else .error .spanReversed

/-- Both ends, the way editors show them to people. -/
def render (s : Span) : String := s.start.render ++ "-" ++ s.finish.render

end Span

/-- The range of the token itself. -/
def Token.span (t : Token) : Checked Span := Span.ofTokens t t

end AsmLens
