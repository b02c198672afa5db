/-!
What a token is, for highlighting. The legend lists the categories and the modifiers in the order of
the numbers that stand for them in an encoded token; a client reads a number as an index into it.
-/

namespace AsmLens

/-- The meaning of a token. -/
inductive Category where
  /-- An instruction mnemonic. -/
  | keyword
  /-- The head of a label declaration. -/
  | label
  | register
  | number
  | comment
  /-- An operand size or distance. -/
  | sizeWord
  | directive
  | operator
  /-- A word of no vocabulary: it may turn out to declare or to name a label. -/
  | unknown
  deriving DecidableEq, Repr

namespace Category

/-- Every category, in legend order. -/
def legend : List Category :=
  [keyword, label, register, number, comment, sizeWord, directive, operator, unknown]

/-- The place of a category in the legend. -/
def index : Category → Nat
  | keyword => 0
  | label => 1
  | register => 2
  | number => 3
  | comment => 4
  | sizeWord => 5
  | directive => 6
  | operator => 7
  | unknown => 8

/-- The name that the legend gives a category. A word that declares nothing is taken for a reference
to a label. -/
def legendName : Category → String
  | keyword => "keyword"
  | label => "function"
  | register => "variable"
  | number => "number"
  | comment => "comment"
  | sizeWord => "type"
  | directive => "macro"
  | operator => "operator"
  | unknown => "label"

theorem legend_getElem?_index (category : Category) :
    legend[category.index]? = some category := by
  cases category <;> rfl

theorem index_lt_length_legend (category : Category) : category.index < legend.length := by
  cases category <;> decide

theorem index_legend (i : Fin legend.length) : legend[i].index = i := by
  decide +revert

end Category

/-- A set of token modifiers, one to the bit. Bits without a name are kept. -/
structure Modifiers where
  bits : Nat := 0
  deriving DecidableEq, Repr

namespace Modifiers

/-- The names of the modifiers, in the order of their bits. -/
def legend : List String := ["declaration"]

/-- No modifier. -/
def none : Modifiers := {}

/-- The token declares the label that it spells. -/
def declaration : Modifiers := ⟨1⟩

/-- The modifiers of both sets. -/
def union (a b : Modifiers) : Modifiers := ⟨a.bits ||| b.bits⟩

end Modifiers

end AsmLens
