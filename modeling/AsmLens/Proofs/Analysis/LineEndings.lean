import AsmLens.Proofs.Analysis.ByLine

/-!
How the lines of a source end. The analysis sees the lines of a source and nothing else of it
(`analyze_eq_of_lines`), and a carriage return in front of a newline, or at the end of the source,
is on no line: a source that has none can be given them at any of its newlines, and is analyzed as
it was (`analyze_withReturns`).
-/

namespace AsmLens

namespace Text

/-- A text with a carriage return in front of those of its newlines that are chosen by their number,
where the first has the number given. -/
def withReturns (chosen : Nat → Bool) (number : Nat) : List Char → List Char
  | [] => []
  | c :: rest =>
      if c = '\n' then
        if chosen number then '\r' :: '\n' :: withReturns chosen (number + 1) rest
        else '\n' :: withReturns chosen (number + 1) rest
      else c :: withReturns chosen number rest

/-- A character in front of a line stays there, unless it is a carriage return. -/
theorem dropReturn_cons {c : Char} (hreturn : c ≠ '\r') (line : List Char) :
    dropReturn (c :: line) = c :: dropReturn line := by
  cases line with
  | nil => simp [dropReturn, hreturn]
  | cons d rest =>
      by_cases hlast : (d :: rest).getLast? = some '\r'
      · simp [dropReturn, List.getLast?_cons_cons, hlast]
      · simp [dropReturn, List.getLast?_cons_cons, hlast]

/-- A character that ends no line joins the first line behind it. -/
theorem lines_cons {c : Char} (hnewline : c ≠ '\n') (hreturn : c ≠ '\r') (text : List Char) :
    lines (c :: text) = (lines text).modifyHead (c :: ·) := by
  cases hpieces : pieces text with
  | nil => exact absurd hpieces (pieces_ne_nil text)
  | cons piece more => simp [lines, pieces, hnewline, hpieces, dropReturn_cons hreturn]

/-- A newline ends its line with or without a carriage return in front of it. -/
theorem lines_newline (text : List Char) :
    lines ('\n' :: text) = [] :: lines text ∧ lines ('\r' :: '\n' :: text) = [] :: lines text :=
  ⟨lines_append_newline [] text, lines_append_newline ['\r'] text⟩

/-- Carriage returns at the ends of lines change no line. -/
theorem lines_withReturns {text : List Char} (hfree : '\r' ∉ text) (chosen : Nat → Bool)
    (number : Nat) (closing : Bool) :
    lines (withReturns chosen number text ++ if closing then ['\r'] else []) = lines text := by
  induction text generalizing number with
  | nil => cases closing <;> rfl
  | cons c rest ih =>
      rw [List.mem_cons, not_or] at hfree
      have ih := ih hfree.2
      by_cases hc : c = '\n'
      · subst hc
        by_cases hchosen : chosen number
        · simp [withReturns, hchosen, (lines_newline _).1, (lines_newline _).2, ih]
        · simp [withReturns, hchosen, (lines_newline _).1, ih]
      · have hreturn : c ≠ '\r' := Ne.symm hfree.1
        rw [lines_cons hc hreturn, ← ih number]
        simp [withReturns, hc, lines_cons hc hreturn]

end Text

/-- Sources with the same lines have the same analysis, whether it goes through or not. -/
theorem analyze_eq_of_lines {a b : String} (h : Text.lines a.toList = Text.lines b.toList) :
    analyze a = analyze b := by
  have hdocument : Lexer.document a.toList = Lexer.document b.toList := by
    rw [Lexer.document, Lexer.document, h]
  have hcount : Text.lineCount a.toList = Text.lineCount b.toList := by
    rw [Text.lineCount, Text.lineCount, ← Text.length_lines, ← Text.length_lines, h]
  rw [analyze, analyze, hdocument, hcount]

/-- A source without carriage returns is analyzed as before, with the same log, once any of its
newlines have been given a carriage return each, and whether or not one is put at its end. A source
of at most 4294967293 bytes has an answer. -/
theorem analyze_withReturns {source : String} (hfree : '\r' ∉ source.toList)
    (chosen : Nat → Bool) (closing : Bool) {other : String}
    (hother : other.toList =
      Text.withReturns chosen 0 source.toList ++ if closing then ['\r'] else []) :
    analyze other = analyze source ∧
      (source.utf8ByteSize ≤ Text.byteLimit → ∃ found, analyze other = .ok found) := by
  have hsame : analyze other = analyze source := by
    apply analyze_eq_of_lines
    rw [hother, Text.lines_withReturns hfree]
  refine ⟨hsame, ?_⟩
  intro hsize
  obtain ⟨found, hfound, -⟩ := analyze_eq (.of_utf8ByteSize hsize)
  exact ⟨found, hsame.trans hfound⟩

/-- Every other newline gets a carriage return, one of them behind a comment, and so does the end of
the source. -/
theorem analyze_withReturns_mixed :
    '\r' ∉ "a: ; 𝒳\n\nmov eax\nb".toList ∧
      "a: ; 𝒳\r\n\nmov eax\r\nb\r".toList =
        Text.withReturns (· % 2 = 0) 0 "a: ; 𝒳\n\nmov eax\nb".toList ++
          (if true then ['\r'] else []) ∧
      ∃ found, analyze "a: ; 𝒳\r\n\nmov eax\r\nb\r" = .ok found ∧
        analyze "a: ; 𝒳\n\nmov eax\nb" = .ok found := by
  have hfree : '\r' ∉ "a: ; 𝒳\n\nmov eax\nb".toList := by decide
  have hother : "a: ; 𝒳\r\n\nmov eax\r\nb\r".toList =
      Text.withReturns (· % 2 = 0) 0 "a: ; 𝒳\n\nmov eax\nb".toList ++
        (if true then ['\r'] else []) := by
    decide
  obtain ⟨hsame, htotal⟩ := analyze_withReturns hfree _ true hother
  obtain ⟨found, hfound⟩ := htotal (by decide)
  exact ⟨hfree, hother, found, hfound, hsame.symm.trans hfound⟩

end AsmLens
