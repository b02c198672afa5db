import AsmLens.Text.Lines
import AsmLens.Text.Units

/-!
How large a text may be. A line number, a column and a length are words, so a text whose line
numbers and columns are words can be analyzed without a sum that overflows (`FitsWords`). Two
facts make that condition usable: a text of few enough bytes has it, and it splits at a newline.
-/

namespace AsmLens.Text

/-! ## The three lengths compared -/

/-- No character takes more code units than bytes. -/
theorem length_charUnits_le (c : Char) : (charUnits c).length ≤ c.utf8Size := by
  have hpos := c.utf8Size_pos
  by_cases h : c.toNat < 0x10000
  · rw [charUnits, if_pos h]
    exact hpos
  · have hfour : c.utf8Size = 4 := by
      rw [Char.utf8Size_eq_four_iff, UInt32.lt_iff_toNat_lt]
      exact Nat.not_lt.mp h
    rw [charUnits, if_neg h, hfour]
    exact Nat.le_add_left 2 2

theorem unitCount_le_byteCount (text : List Char) : unitCount text ≤ byteCount text := by
  induction text with
  | nil => exact Nat.le_refl _
  | cons c text ih =>
      rw [unitCount_cons, byteCount_cons]
      exact Nat.add_le_add (length_charUnits_le c) ih

theorem count_le_byteCount (c : Char) (text : List Char) : text.count c ≤ byteCount text := by
  induction text with
  | nil => exact Nat.le_refl _
  | cons d text ih =>
      have hpos := d.utf8Size_pos
      rw [byteCount_cons, List.count_cons]
      split <;> omega

/-- The bytes of a string are those of its characters. -/
theorem utf8ByteSize_eq_byteCount (s : String) : s.utf8ByteSize = byteCount s.toList := by
  have hsize : ∀ text : List Char, text.utf8Encode.size = byteCount text := by
    intro text
    induction text with
    | nil => rfl
    | cons c text ih =>
        rw [List.utf8Encode_cons, ByteArray.size_append, ih, List.utf8Encode_singleton,
          byteCount_cons]
        simp
  rw [← hsize, String.utf8Encode_toList]
  rfl

theorem toList_append_newline (a b : String) :
    (a ++ "\n" ++ b).toList = a.toList ++ '\n' :: b.toList := by
  simp [String.toList_append]

/-! ## Lines -/

theorem length_lines (text : List Char) : (lines text).length = text.count '\n' + 1 := by
  rw [lines, List.length_map, length_pieces]

theorem pieces_of_not_mem {text : List Char} (h : '\n' ∉ text) : pieces text = [text] := by
  induction text with
  | nil => rfl
  | cons c rest ih =>
      rw [List.mem_cons, not_or] at h
      rw [pieces, if_neg (Ne.symm h.1), ih h.2]

/-- The lines of two texts with a newline between them are the lines of the one, then those of the
other. -/
theorem lines_append_newline (a b : List Char) :
    lines (a ++ '\n' :: b) = lines a ++ lines b := by
  rw [lines, pieces_append_newline, List.map_append]
  rfl

/-- A text is a last line, or a line and its newline in front of another text. -/
@[elab_as_elim]
theorem lineInduction {motive : List Char → Prop}
    (last : ∀ line, '\n' ∉ line → motive line)
    (newline : ∀ line rest, '\n' ∉ line → motive rest → motive (line ++ '\n' :: rest))
    (text : List Char) : motive text := by
  induction hlength : text.length using Nat.strongRecOn generalizing text with
  | ind size ih =>
      by_cases h : '\n' ∈ text
      · obtain ⟨line, rest, rfl, hline⟩ := List.eq_append_cons_of_mem h
        have hshorter : rest.length < size := by
          rw [List.length_append, List.length_cons] at hlength
          omega
        exact newline line rest hline (ih rest.length hshorter rest rfl)
      · exact last text h

theorem pieces_append_newline_of_not_mem {line : List Char} (h : '\n' ∉ line) (rest : List Char) :
    pieces (line ++ '\n' :: rest) = line :: pieces rest := by
  rw [pieces_append_newline, pieces_of_not_mem h]
  rfl

theorem byteCount_le_of_mem_pieces {text piece : List Char} (h : piece ∈ pieces text) :
    byteCount piece ≤ byteCount text := by
  induction text using lineInduction with
  | last line hline =>
      rw [pieces_of_not_mem hline, List.mem_singleton] at h
      exact Nat.le_of_eq (congrArg byteCount h)
  | newline line rest hline ih =>
      rw [pieces_append_newline_of_not_mem hline] at h
      rw [byteCount_append, byteCount_cons]
      rcases List.mem_cons.mp h with rfl | h
      · exact Nat.le_add_right _ _
      · have hrest := ih h
        omega

theorem byteCount_dropReturn_le (line : List Char) :
    byteCount (dropReturn line) ≤ byteCount line := by
  unfold dropReturn
  split
  · next h =>
      obtain ⟨front, rfl⟩ := List.getLast?_eq_some_iff.mp h
      rw [List.dropLast_concat, byteCount_append]
      exact Nat.le_add_right _ _
  · exact Nat.le_refl _

theorem byteCount_le_of_mem_lines {text line : List Char} (h : line ∈ lines text) :
    byteCount line ≤ byteCount text := by
  obtain ⟨piece, hpiece, rfl⟩ := List.mem_map.mp h
  exact Nat.le_trans (byteCount_dropReturn_le piece) (byteCount_le_of_mem_pieces hpiece)

/-! ## Texts that words can number -/

/-- The number of every line of a text is a word, as is the number that would come next, and so is
every column of every line. -/
structure FitsWords (text : List Char) : Prop where
  numbers : text.count '\n' + 2 ≤ Word.limit
  columns : ∀ line ∈ lines text, unitCount line ≤ Word.limit

/-- The bytes of a text bound its lines and its columns. -/
theorem FitsWords.of_byteCount {text : List Char} (h : byteCount text + 2 ≤ Word.limit) :
    FitsWords text where
  numbers := by
    have hcount := count_le_byteCount '\n' text
    omega
  columns := by
    intro line hline
    have hunits := unitCount_le_byteCount line
    have hbytes := byteCount_le_of_mem_lines hline
    omega

/-- The bytes that a source may have so that words can number its lines and columns in any case:
three less than there are words. -/
def byteLimit : Nat := 4294967293

theorem FitsWords.of_utf8ByteSize {source : String} (h : source.utf8ByteSize ≤ byteLimit) :
    FitsWords source.toList := by
  refine .of_byteCount ?_
  rw [← utf8ByteSize_eq_byteCount]
  simp only [byteLimit] at h
  simp only [Word.limit]
  omega

theorem FitsWords.left {a b : List Char} (h : FitsWords (a ++ '\n' :: b)) : FitsWords a where
  numbers := by
    have hnumbers := h.numbers
    rw [List.count_append] at hnumbers
    omega
  columns := by
    intro line hline
    exact h.columns line (by rw [lines_append_newline]; exact List.mem_append_left _ hline)

theorem FitsWords.right {a b : List Char} (h : FitsWords (a ++ '\n' :: b)) : FitsWords b where
  numbers := by
    have hnumbers := h.numbers
    rw [List.count_append, List.count_cons_self] at hnumbers
    omega
  columns := by
    intro line hline
    exact h.columns line (by rw [lines_append_newline]; exact List.mem_append_right _ hline)

theorem FitsWords.lineCount_eq {text : List Char} (h : FitsWords text) :
    lineCount text = (lines text).length := by
  rw [length_lines]
  exact Word.clamp_of_le (by have := h.numbers; omega)

end AsmLens.Text
