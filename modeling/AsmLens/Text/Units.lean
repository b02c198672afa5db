import AsmLens.Word

/-!
The three lengths of a text: characters, UTF-8 bytes and UTF-16 code units. Editors count columns in
code units, while a scan advances by bytes; on ASCII text the two agree, which `width` uses.
-/

namespace AsmLens.Text

/-- The UTF-16 code units of a character: itself, or a surrogate pair beyond the basic plane. -/
def charUnits (c : Char) : List Nat :=
  if c.toNat < 0x10000 then [c.toNat]
  else [0xD800 + (c.toNat - 0x10000) / 0x400, 0xDC00 + (c.toNat - 0x10000) % 0x400]

/-- The UTF-16 encoding of a text. -/
def codeUnits (text : List Char) : List Nat := text.flatMap charUnits

/-- Length in UTF-16 code units. -/
def unitCount (text : List Char) : Nat := (codeUnits text).length

/-- Length in UTF-8 bytes. -/
def byteCount (text : List Char) : Nat := text.foldr (fun c bytes => c.utf8Size + bytes) 0

/-- Whether every character is ASCII. -/
def isAscii (text : List Char) : Bool := text.all (·.toNat < 128)

/-- Length in UTF-16 code units as a word. ASCII text has one unit to the byte, so its bytes are
counted instead. -/
def width (text : List Char) : Nat :=
  if isAscii text then Word.clamp (byteCount text) else Word.clamp (unitCount text)

/-- The first `n` bytes of a text and the rest, if a character ends there. -/
def splitBytes : Nat → List Char → Option (List Char × List Char)
  | 0, text => some ([], text)
  | _ + 1, [] => none
  | n + 1, c :: text =>
      if c.utf8Size ≤ n + 1 then
        (splitBytes (n + 1 - c.utf8Size) text).map fun (taken, rest) => (c :: taken, rest)
      else none

@[simp] theorem unitCount_nil : unitCount [] = 0 := rfl

@[simp] theorem byteCount_nil : byteCount [] = 0 := rfl

@[simp] theorem byteCount_cons (c : Char) (text : List Char) :
    byteCount (c :: text) = c.utf8Size + byteCount text := rfl

theorem unitCount_cons (c : Char) (text : List Char) :
    unitCount (c :: text) = (charUnits c).length + unitCount text := by
  simp [unitCount, codeUnits]

theorem unitCount_append (a b : List Char) : unitCount (a ++ b) = unitCount a + unitCount b := by
  simp [unitCount, codeUnits]

theorem byteCount_append (a b : List Char) : byteCount (a ++ b) = byteCount a + byteCount b := by
  induction a with
  | nil => exact (Nat.zero_add _).symm
  | cons c a ih => rw [List.cons_append, byteCount_cons, byteCount_cons, ih, Nat.add_assoc]

/-- ASCII text has one code unit to the byte. -/
theorem byteCount_eq_unitCount_of_isAscii {text : List Char} (h : isAscii text) :
    byteCount text = unitCount text := by
  induction text with
  | nil => rfl
  | cons c text ih =>
    simp only [isAscii, List.all_cons, Bool.and_eq_true, decide_eq_true_eq] at h
    have hbytes : c.utf8Size = 1 :=
      Char.utf8Size_eq_one_iff.mpr (UInt32.le_iff_toNat_le.mpr (Nat.le_of_lt_succ h.1))
    have hunits : (charUnits c).length = 1 := by
      rw [charUnits, if_pos (by omega)]
      rfl
    rw [byteCount_cons, unitCount_cons, ih h.2, hbytes, hunits]

/-- The width counts code units, whichever way it takes. -/
theorem width_eq (text : List Char) : width text = Word.clamp (unitCount text) := by
  unfold width
  split
  · next h => rw [byteCount_eq_unitCount_of_isAscii h]
  · rfl

theorem splitBytes_byteCount (taken rest : List Char) :
    splitBytes (byteCount taken) (taken ++ rest) = some (taken, rest) := by
  induction taken with
  | nil => simp [splitBytes]
  | cons c taken ih =>
    have hc := c.utf8Size_pos
    obtain ⟨n, hn⟩ : ∃ n, byteCount (c :: taken) = n + 1 :=
      ⟨byteCount (c :: taken) - 1, by rw [byteCount_cons]; omega⟩
    have hle : c.utf8Size ≤ n + 1 := by rw [← hn, byteCount_cons]; omega
    have hrest : n + 1 - c.utf8Size = byteCount taken := by rw [← hn, byteCount_cons]; omega
    rw [hn, List.cons_append]
    simp [splitBytes, hle, hrest, ih]

end AsmLens.Text
