import AsmLens.Text.Units

/-!
The columns of a line. A scan knows byte offsets; an editor wants UTF-16 columns. A `ColumnCursor`
turns one into the other while walking forward over the line once, and on ASCII lines it need not
walk at all.
-/

namespace AsmLens

/-- A place in a line up to which the columns have been counted. -/
structure ColumnCursor where
  /-- Whether the whole line is ASCII. -/
  ascii : Bool
  /-- The line from the cursor on. -/
  ahead : List Char
  /-- Bytes before the cursor. -/
  byte : Nat := 0
  /-- UTF-16 code units before the cursor. -/
  column : Nat := 0
  deriving DecidableEq, Repr

namespace ColumnCursor

/-- The cursor at the start of a line. -/
def ofLine (line : List Char) : ColumnCursor := { ascii := Text.isAscii line, ahead := line }

/-- The column at a byte offset, and the cursor moved there. Offsets are asked for from left to
right. -/
def moveTo (cursor : ColumnCursor) (offset : Nat) : Checked (Nat × ColumnCursor) :=
  if offset < cursor.byte then .error .columnBehind
  else if cursor.ascii then .ok (Word.clamp offset, cursor)
  else
    match Text.splitBytes (offset - cursor.byte) cursor.ahead with
    | none => .error .columnOffCharacter
    | some (passed, ahead) => do
        let column ← Word.add .columnTooLarge cursor.column (Text.width passed)
        return (column, { cursor with ahead, byte := offset, column })

end ColumnCursor

end AsmLens
