import AsmLens.Proofs.Text.Extent
import Mathlib.Data.List.TakeWhile

/-!
Cutting a text into lines loses nothing of it. The lines are the pieces between the newlines, each
parted from the one carriage return that it may end with (`parted_dropReturn`), and put together
again they are the text (`splitsInto_lines`). A walk that looks for one newline at a time hands out
the same lines and then comes to an end (`handsOut_iff`).
-/

namespace AsmLens.Text

/-! ## Pieces -/

theorem pieces_eq_splitOn (text : List Char) : pieces text = text.splitOn '\n' := by
  induction text using lineInduction with
  | last line hline => rw [pieces_of_not_mem hline, List.splitOn_eq_singleton hline]
  | newline line rest hline ih =>
      rw [pieces_append_newline_of_not_mem hline, ih,
        List.splitOn_append_cons_self_of_not_mem hline]

theorem not_mem_of_mem_pieces {text piece : List Char} (h : piece ∈ pieces text) :
    '\n' ∉ piece := by
  induction text using lineInduction with
  | last line hline =>
      rw [pieces_of_not_mem hline, List.mem_singleton] at h
      rwa [h]
  | newline line rest hline ih =>
      rw [pieces_append_newline_of_not_mem hline] at h
      rcases List.mem_cons.mp h with rfl | h
      · exact hline
      · exact ih h

/-! ## The ends of lines -/

/-- A piece of a text, the line that it holds, and what ends the line: one carriage return, or
nothing where the piece does not end with one. -/
inductive Parted : List Char → List Char → List Char → Prop
  | returned (line : List Char) : Parted (line ++ ['\r']) line ['\r']
  | plain {line : List Char} (hplain : ¬ ['\r'] <:+ line) : Parted line line []

theorem Parted.append_eq {piece line ending : List Char} (h : Parted piece line ending) :
    line ++ ending = piece := by
  cases h with
  | returned => rfl
  | plain => exact List.append_nil piece

/-- What ends the line of a piece. -/
def ending (piece : List Char) : List Char :=
  if piece.getLast? = some '\r' then ['\r'] else []

/-- What ends the lines of a text, in their order. -/
def endings (text : List Char) : List (List Char) := (pieces text).map ending

theorem parted_dropReturn (piece : List Char) : Parted piece (dropReturn piece) (ending piece) := by
  by_cases hlast : piece.getLast? = some '\r'
  · obtain ⟨line, rfl⟩ := List.getLast?_eq_some_iff.mp hlast
    rw [dropReturn, ending, if_pos hlast, if_pos hlast, List.dropLast_concat]
    exact .returned line
  · rw [dropReturn, ending, if_neg hlast, if_neg hlast]
    refine .plain ?_
    rintro ⟨line, rfl⟩
    exact hlast List.getLast?_concat

theorem not_mem_of_mem_lines {text line : List Char} (h : line ∈ lines text) : '\n' ∉ line := by
  obtain ⟨piece, hpiece, rfl⟩ := List.mem_map.mp h
  intro hnewline
  apply not_mem_of_mem_pieces hpiece
  rw [← (parted_dropReturn piece).append_eq]
  exact List.mem_append_left _ hnewline

/-- Each line with what ends it is a piece again. -/
theorem zipWith_lines_endings (text : List Char) :
    List.zipWith (· ++ ·) (lines text) (endings text) = pieces text := by
  have hwhole : (fun piece => dropReturn piece ++ ending piece) = id :=
    funext fun piece => (parted_dropReturn piece).append_eq
  rw [lines, endings, List.zipWith_map, List.zipWith_self, hwhole, List.map_id]

/-- The lines of a source, and what ends each of them. -/
structure SplitsInto (source : List Char) (lines endings : List (List Char)) : Prop where
  /-- There is one line more than there are newlines. -/
  count : lines.length = source.count '\n' + 1
  noNewline : ∀ line ∈ lines, '\n' ∉ line
  /-- The line of a piece is the piece but for the one carriage return that may end it. -/
  parted : ∀ (i : Nat) (piece : List Char), (source.splitOn '\n')[i]? = some piece →
    ∃ line ending, lines[i]? = some line ∧ endings[i]? = some ending ∧ Parted piece line ending
  /-- With their ends put back and newlines between them, the lines are the source. -/
  joined : ['\n'].intercalate (List.zipWith (· ++ ·) lines endings) = source

theorem splitsInto_lines (source : List Char) :
    SplitsInto source (lines source) (endings source) where
  count := length_lines source
  noNewline := fun _ hline => not_mem_of_mem_lines hline
  parted := by
    intro i piece hpiece
    rw [← pieces_eq_splitOn] at hpiece
    refine ⟨dropReturn piece, ending piece, ?_, ?_, parted_dropReturn piece⟩
    · rw [lines, List.getElem?_map, hpiece]
      rfl
    · rw [endings, List.getElem?_map, hpiece]
      rfl
  joined := by
    rw [zipWith_lines_endings, pieces_eq_splitOn]
    exact List.intercalate_splitOn '\n'

/-! ## Walking over the lines -/

/-- The line that a walk hands out next, and what it then has still to read. There is nothing to
read once the last line has been handed out; an empty rest is one line more. -/
def nextLine (unread : Option (List Char)) : Option (List Char × Option (List Char)) :=
  unread.map fun rest =>
    (dropReturn (rest.takeWhile (· ≠ '\n')), (rest.dropWhile (· ≠ '\n')).tail?)

/-- The lines that a walk hands out until it comes to its end. -/
inductive HandsOut : Option (List Char) → List (List Char) → Prop
  | finished {unread : Option (List Char)} (hnone : nextLine unread = none) : HandsOut unread []
  | line {unread later : Option (List Char)} {line : List Char} {more : List (List Char)}
      (hnext : nextLine unread = some (line, later)) (hmore : HandsOut later more) :
      HandsOut unread (line :: more)

theorem HandsOut.unique {unread : Option (List Char)} {drawn others : List (List Char)}
    (h : HandsOut unread drawn) (hother : HandsOut unread others) : drawn = others := by
  induction h generalizing others with
  | finished hnone =>
      cases hother with
      | finished => rfl
      | line hnext =>
          rw [hnone] at hnext
          cases hnext
  | line hnext _ ih =>
      cases hother with
      | finished hnone =>
          rw [hnone] at hnext
          cases hnext
      | line hother hmore =>
          rw [hnext] at hother
          cases hother
          rw [ih hmore]

theorem ne_newline_of_not_mem {text : List Char} (h : '\n' ∉ text) :
    ∀ c ∈ text, decide (c ≠ '\n') = true := by
  intro c hc
  refine decide_eq_true ?_
  rintro rfl
  exact h hc

/-- A walk reads up to the first newline and goes on behind it. -/
theorem nextLine_append_newline {front : List Char} (hfront : '\n' ∉ front) (rest : List Char) :
    nextLine (some (front ++ '\n' :: rest)) = some (dropReturn front, some rest) := by
  have hall := ne_newline_of_not_mem hfront
  rw [nextLine, Option.map_some, List.takeWhile_append_of_pos hall,
    List.dropWhile_append_of_pos hall]
  simp

/-- Where there is no newline left, a walk hands out all the rest and ends. -/
theorem nextLine_of_not_mem {rest : List Char} (h : '\n' ∉ rest) :
    nextLine (some rest) = some (dropReturn rest, none) := by
  have hall := ne_newline_of_not_mem h
  rw [nextLine, Option.map_some, List.takeWhile_eq_self_iff.mpr hall,
    List.dropWhile_eq_nil_iff.mpr hall]
  rfl

/-- A walk over a text comes to its end, and hands out the lines of the text. -/
theorem handsOut_lines (text : List Char) : HandsOut (some text) (lines text) := by
  induction text using lineInduction with
  | last line hline =>
      rw [lines, pieces_of_not_mem hline]
      exact .line (nextLine_of_not_mem hline) (.finished rfl)
  | newline line rest hline ih =>
      rw [lines, pieces_append_newline_of_not_mem hline]
      exact .line (nextLine_append_newline hline rest) ih

theorem handsOut_iff {text : List Char} {drawn : List (List Char)} :
    HandsOut (some text) drawn ↔ drawn = lines text := by
  constructor
  · intro h
    exact h.unique (handsOut_lines text)
  · rintro rfl
    exact handsOut_lines text

end AsmLens.Text
