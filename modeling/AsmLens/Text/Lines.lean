import AsmLens.Word

/-!
The lines of a document. A newline ends a line and opens the next one, so there is one line more
than there are newlines; a carriage return at the end of a line belongs to its terminator.
-/

namespace AsmLens.Text

/-- The pieces of a text between its newlines. -/
def pieces : List Char → List (List Char)
  | [] => [[]]
  | c :: rest =>
      if c = '\n' then [] :: pieces rest
      else
        match pieces rest with
        | [] => [[c]]
        | piece :: more => (c :: piece) :: more

/-- A line without the carriage return of its terminator. -/
def dropReturn (line : List Char) : List Char :=
  if line.getLast? = some '\r' then line.dropLast else line

/-- The lines of a text, without their terminators. -/
def lines (text : List Char) : List (List Char) := (pieces text).map dropReturn

/-- The number of lines, as a word. -/
def lineCount (text : List Char) : Nat := Word.clamp (text.count '\n' + 1)

theorem pieces_ne_nil (text : List Char) : pieces text ≠ [] := by
  cases text with
  | nil => simp [pieces]
  | cons c rest =>
    simp only [pieces]
    split
    · simp
    · split <;> simp

theorem length_pieces (text : List Char) : (pieces text).length = text.count '\n' + 1 := by
  induction text with
  | nil => rfl
  | cons c rest ih =>
    by_cases h : c = '\n'
    · simp [pieces, h, ih]
    · cases hp : pieces rest with
      | nil => exact absurd hp (pieces_ne_nil rest)
      | cons piece more => simp [pieces, h, hp, ← ih]

/-- A newline cuts a text in two: what comes before it and what comes after it have their own
pieces. -/
theorem pieces_append_newline (a b : List Char) :
    pieces (a ++ '\n' :: b) = pieces a ++ pieces b := by
  induction a with
  | nil => simp [pieces]
  | cons c rest ih =>
    by_cases h : c = '\n'
    · simp [pieces, h, ih]
    · cases hp : pieces rest with
      | nil => exact absurd hp (pieces_ne_nil rest)
      | cons piece more => simp [pieces, h, ih, hp]

end AsmLens.Text
