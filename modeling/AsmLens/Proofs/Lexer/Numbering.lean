import AsmLens.Proofs.Lexer.Document
import AsmLens.Proofs.Text.Splitting

/-!
A document is lexed line by line. What is found in it is what is found on its lines, each read once
and under its own number, one after another (`linesFrom_eq_ok_iff`); with what is known of the
lines, nothing of a source is passed over (`lines_lossless`).
-/

namespace AsmLens

open Text

namespace Lexer

/-- What is found in texts that are numbered from `number` on. -/
def lineByLine (number : Nat) (texts : List (List Char)) : Checked (List Scanned) :=
  (texts.zipIdx number).mapM fun (text, i) => line i text

theorem lineByLine_cons_eq_ok_iff {number : Nat} {text : List Char} {more : List (List Char)}
    {founds : List Scanned} :
    lineByLine number (text :: more) = .ok founds ↔
      ∃ here later, line number text = .ok here ∧ lineByLine (number + 1) more = .ok later ∧
        founds = here :: later := by
  rw [lineByLine, List.zipIdx_cons, List.mapM_cons, Checked.bind_eq_ok_iff]
  constructor
  · rintro ⟨here, hhere, h⟩
    obtain ⟨later, hlater, h⟩ := Checked.bind_eq_ok_iff.mp h
    cases h
    exact ⟨here, later, hhere, hlater, rfl⟩
  · rintro ⟨here, later, hhere, hlater, rfl⟩
    exact ⟨here, hhere, Checked.bind_eq_ok_iff.mpr ⟨later, hlater, rfl⟩⟩

/-- Lines are lexed exactly when the number behind the last one is still below the largest word, and
each line is lexed under its own; then their findings stand one after another. -/
theorem linesFrom_eq_ok_iff {number : Nat} {texts : List (List Char)} {found : Scanned} :
    linesFrom number texts = .ok found ↔
      number + texts.length < Word.limit ∧ ∃ founds, lineByLine number texts = .ok founds ∧
        found = ⟨founds.flatMap Scanned.tokens, founds.flatMap Scanned.strays⟩ := by
  induction texts generalizing number found with
  | nil =>
      rw [linesFrom, Checked.bind_eq_ok_iff]
      constructor
      · rintro ⟨next, hnext, h⟩
        cases h
        exact ⟨(Word.add_eq_ok_iff.mp hnext).1, [], rfl, rfl⟩
      · rintro ⟨hnumber, founds, hfounds, rfl⟩
        cases hfounds
        exact ⟨number + 1, Word.add_of_le _ hnumber, rfl⟩
  | cons text more ih =>
      rw [linesFrom, Checked.bind_eq_ok_iff, List.length_cons]
      constructor
      · rintro ⟨next, hnext, h⟩
        obtain ⟨here, hhere, h⟩ := Checked.bind_eq_ok_iff.mp h
        obtain ⟨later, hlater, h⟩ := Checked.bind_eq_ok_iff.mp h
        cases h
        obtain ⟨-, rfl⟩ := Word.add_eq_ok_iff.mp hnext
        obtain ⟨hnumber, founds, hfounds, rfl⟩ := ih.mp hlater
        exact ⟨by omega, here :: founds, lineByLine_cons_eq_ok_iff.mpr ⟨_, _, hhere, hfounds, rfl⟩,
          rfl⟩
      · rintro ⟨hnumber, founds, hfounds, rfl⟩
        obtain ⟨here, rest, hhere, hrest, rfl⟩ := lineByLine_cons_eq_ok_iff.mp hfounds
        have hmore : number + 1 + more.length < Word.limit := by omega
        have hlater := ih.mpr ⟨hmore, rest, hrest, rfl⟩
        refine ⟨number + 1, Word.add_of_le _ (by omega), ?_⟩
        rw [Checked.bind_eq_ok_iff]
        refine ⟨here, hhere, ?_⟩
        rw [Checked.bind_eq_ok_iff]
        exact ⟨_, hlater, rfl⟩

end Lexer

/-- A source is cut into one line more than it has newlines, and nothing of it is lost: the lines are
the pieces between the newlines, each without the one carriage return that may end it, and with
these put back they are the source (`SplitsInto`). A walk from newline to newline hands out these
lines and ends, and a document is lexed by lexing each of them once, under its number, in their
order. It breaks off where a line does, and where there are as many lines as the largest word says,
or more; a source whose columns and numbers are words is lexed. -/
theorem lines_lossless (source : List Char) :
    SplitsInto source (lines source) (endings source) ∧
      (∀ drawn, HandsOut (some source) drawn ↔ drawn = lines source) ∧
      ((lines source).length ≤ Word.limit → lineCount source = (lines source).length) ∧
      (FitsWords source → ∃ found, Lexer.document source = .ok found) ∧
      ∀ found, Lexer.document source = .ok found ↔
        (lines source).length < Word.limit ∧ ∃ founds,
          (lines source).zipIdx.mapM (fun (text, i) => Lexer.line i text) = .ok founds ∧
            found = ⟨founds.flatMap Scanned.tokens, founds.flatMap Scanned.strays⟩ := by
  refine ⟨splitsInto_lines source, fun _ => handsOut_iff, ?_, ?_, ?_⟩
  · intro hwords
    rw [length_lines] at hwords ⊢
    exact Word.clamp_of_le hwords
  · intro hfit
    exact ⟨_, Lexer.document_eq hfit⟩
  · intro found
    rw [Lexer.document, Lexer.linesFrom_eq_ok_iff, Nat.zero_add, Lexer.lineByLine]

/-- A line that ends with a carriage return, an empty one, and a last one that keeps the first of its
two. -/
theorem lines_lossless_returns :
    let source := "a:\r\n\nb\r\r".toList
    let texts := ["a:".toList, [], "b\r".toList]
    FitsWords source ∧ (lines source).length ≤ Word.limit ∧
      SplitsInto source texts [['\r'], [], ['\r']] ∧ HandsOut (some source) texts ∧
      lineCount source = 3 ∧
      ∃ found founds, Lexer.document source = .ok found ∧
        texts.zipIdx.mapM (fun (text, i) => Lexer.line i text) = .ok founds ∧
        found = ⟨founds.flatMap Scanned.tokens, founds.flatMap Scanned.strays⟩ := by
  intro source texts
  have hfit : FitsWords source := .of_utf8ByteSize (by decide)
  have hlines : lines source = texts := by decide
  have hwords : (lines source).length ≤ Word.limit := by
    rw [hlines]
    decide
  obtain ⟨hsplit, hwalk, hcount, htotal, hdocument⟩ := lines_lossless source
  obtain ⟨found, hfound⟩ := htotal hfit
  obtain ⟨-, founds, hfounds, hwhole⟩ := (hdocument found).mp hfound
  have hcount := hcount hwords
  rw [hlines] at hsplit hcount hfounds
  exact ⟨hfit, hwords, hsplit, (hwalk texts).mpr hlines.symm, hcount, found, founds, hfound, hfounds,
    hwhole⟩

end AsmLens
