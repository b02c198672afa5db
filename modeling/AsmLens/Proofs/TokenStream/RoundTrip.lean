import AsmLens.Proofs.TokenStream.Relative
import AsmLens.Protocol.Tokens
import Mathlib.Data.List.Chain
import Mathlib.Data.Set.List

/-!
Streams and the tokens they stand for determine one another. What tuples stand for is said once
without words (`TokenTuple.placedFrom`): a tuple leads on from the start of the token before it, and
a step to another line counts its columns anew. Streams that decode stay within the words; tokens in
the order of their positions encode; and each of the two gives the other back
(`encode_decode_inverse`).
-/

namespace AsmLens

open Protocol

namespace PlacedToken

/-- Where the token starts. -/
def start (p : PlacedToken) : Position := ⟨p.line, p.column⟩

/-- Whatever has a category of the legend and a length that is a word is what some token is sent
as. -/
theorem exists_token {p : PlacedToken} (hcategory : p.category < Category.legend.length)
    (hlength : p.length ≤ Word.limit) : ∃ t : Token, t.placed = p := by
  obtain ⟨category, hindex⟩ : ∃ category : Category, category.index = p.category :=
    ⟨_, Category.index_legend ⟨p.category, hcategory⟩⟩
  let text := List.replicate p.length 'a'
  have hwidth : Text.width text = p.length := by
    have hunits : Text.unitCount text = p.length := by
      rw [Text.unitCount, Text.codeUnits, List.flatMap_replicate]
      simp [Text.charUnits]
    rw [Text.width_eq, hunits, Word.clamp_of_le hlength]
  refine ⟨⟨p.line, p.column, String.ofList text, category, ⟨p.modifiers⟩⟩, ?_⟩
  rw [Token.placed, Token.length, String.toList_ofList, hwidth, hindex]

end PlacedToken

/-! ## What tuples stand for -/

namespace Protocol.TokenTuple

/-- The token that a tuple stands for, where the token before it starts at `place`. -/
def placedAfter (place : Position) (t : TokenTuple) : PlacedToken :=
  ⟨place.line + t.deltaLine, (if 0 < t.deltaLine then 0 else place.column) + t.deltaStart,
    t.length, t.tokenType, t.modifiers⟩

/-- The tokens that tuples stand for, whether their positions are words or not. -/
def placedFrom (place : Position) : List TokenTuple → List PlacedToken
  | [] => []
  | t :: more => t.placedAfter place :: placedFrom (t.placedAfter place).start more

variable {place : Position} {t u : TokenTuple} {ts us : List TokenTuple}

theorem le_start_placedAfter (place : Position) (t : TokenTuple) :
    place ≤ (t.placedAfter place).start := by
  rw [Position.le_def]
  show place.line < place.line + t.deltaLine ∨
    place.line = place.line + t.deltaLine ∧
      place.column ≤ (if 0 < t.deltaLine then 0 else place.column) + t.deltaStart
  split <;> omega

theorem le_start_of_mem_placedFrom {p : PlacedToken} (hp : p ∈ placedFrom place ts) :
    place ≤ p.start := by
  induction ts generalizing place with
  | nil => cases hp
  | cons t more ih =>
      rcases List.mem_cons.mp hp with rfl | hp
      · exact le_start_placedAfter place t
      · exact Position.le_trans (le_start_placedAfter place t) (ih hp)

/-- All but the position of a token is told by its tuple. -/
theorem exists_tuple_of_mem_placedFrom {p : PlacedToken} (hp : p ∈ placedFrom place ts) :
    ∃ t ∈ ts, p.category = t.tokenType ∧ p.length = t.length := by
  induction ts generalizing place with
  | nil => cases hp
  | cons t more ih =>
      rcases List.mem_cons.mp hp with rfl | hp
      · exact ⟨t, List.mem_cons_self, rfl, rfl⟩
      · obtain ⟨u, hu, htold⟩ := ih hp
        exact ⟨u, List.mem_cons_of_mem t hu, htold⟩

/-- The token of a tuple is told by it but for the position. -/
theorem exists_mem_placedFrom (place : Position) (ht : t ∈ ts) :
    ∃ p ∈ placedFrom place ts,
      p.length = t.length ∧ p.category = t.tokenType ∧ p.modifiers = t.modifiers := by
  induction ts generalizing place with
  | nil => cases ht
  | cons u more ih =>
      rcases List.mem_cons.mp ht with rfl | ht
      · exact ⟨_, List.mem_cons_self, rfl, rfl, rfl⟩
      · obtain ⟨p, hp, htold⟩ := ih (u.placedAfter place).start ht
        exact ⟨p, List.mem_cons_of_mem _ hp, htold⟩

/-- What holds of each two tokens one behind the other holds of their tuples, as far as these tell
it. -/
theorem isChain_of_placedFrom {R : TokenTuple → TokenTuple → Prop}
    {S : PlacedToken → PlacedToken → Prop}
    (htold : ∀ place a b,
      S (placedAfter place a) (placedAfter (placedAfter place a).start b) → R a b)
    (h : (placedFrom place ts).IsChain S) : ts.IsChain R := by
  induction ts generalizing place with
  | nil => exact .nil
  | cons t more ih =>
      cases more with
      | nil => exact .singleton t
      | cons u rest =>
          simp only [placedFrom, List.isChain_cons_cons] at h
          exact .cons_cons (htold place t u h.1) (ih h.2)

/-- No token stands before one in front of it. -/
theorem placedFrom_ordered (place : Position) (ts : List TokenTuple) :
    (placedFrom place ts).Pairwise fun a b => a.start ≤ b.start := by
  induction ts generalizing place with
  | nil => exact .nil
  | cons t more ih => exact .cons (fun _ hp => le_start_of_mem_placedFrom hp) (ih _)

/-- A tuple can be read off its token: the lines tell the step between them, and whether the columns
are counted anew. -/
theorem placedAfter_inj (h : t.placedAfter place = u.placedAfter place) : t = u := by
  simp only [placedAfter, PlacedToken.mk.injEq] at h
  obtain ⟨hline, hcolumn, hlength, htype, hmodifiers⟩ := h
  have hdelta : t.deltaLine = u.deltaLine := Nat.add_left_cancel hline
  rw [hdelta] at hcolumn
  have hstart : t.deltaStart = u.deltaStart := Nat.add_left_cancel hcolumn
  cases t
  cases u
  simp_all

theorem placedFrom_inj (h : placedFrom place ts = placedFrom place us) : ts = us := by
  induction ts generalizing place us with
  | nil =>
      cases us with
      | nil => rfl
      | cons u rest => cases h
  | cons t more ih =>
      cases us with
      | nil => cases h
      | cons u rest =>
          obtain ⟨hfirst, hmore⟩ := List.cons.inj h
          obtain rfl := placedAfter_inj hfirst
          rw [ih hmore]

end Protocol.TokenTuple

namespace TokenStream

open TokenTuple

/-! ## Between tuples and tokens -/

/-- As long as positions are words, the decoder finds what the tuples stand for. -/
theorem decodeFrom_flatten {place : Position} {tuples : List TokenTuple}
    (hfit : ∀ p ∈ placedFrom place tuples, p.line ≤ Word.limit ∧ p.column ≤ Word.limit) :
    decodeFrom place.line place.column (flatten tuples) = .ok (placedFrom place tuples) := by
  induction tuples generalizing place with
  | nil => rfl
  | cons t more ih =>
      obtain ⟨hline, hcolumn⟩ := hfit _ List.mem_cons_self
      have hmore : decodeFrom _ _ (flatten more) =
          .ok (placedFrom (t.placedAfter place).start more) :=
        ih fun p hp => hfit p (List.mem_cons_of_mem _ hp)
      have haddLine := Word.add_of_le .streamTooLong hline
      have haddColumn := Word.add_of_le .streamTooLong hcolumn
      show decodeFrom place.line place.column
        (t.deltaLine :: t.deltaStart :: t.length :: t.tokenType :: t.modifiers :: flatten more) = _
      simp only [decodeFrom, haddLine, haddColumn, bind, Except.bind]
      simp only [PlacedToken.start, placedAfter] at hmore
      rw [hmore]
      rfl

/-- Tokens that are sent as what tuples stand for are encoded by these tuples. -/
theorem encodeFrom_of_map_placed {place : Position} {tokens : List Token}
    {tuples : List TokenTuple} (h : tokens.map Token.placed = placedFrom place tuples) :
    encodeFrom place.line place.column tokens = .ok (flatten tuples) := by
  induction tuples generalizing place tokens with
  | nil =>
      obtain rfl := List.map_eq_nil_iff.mp h
      rfl
  | cons t more ih =>
      cases tokens with
      | nil => cases h
      | cons token rest =>
          obtain ⟨hfirst, hrest⟩ := List.cons.inj h
          have hstart : token.start = (t.placedAfter place).start :=
            congrArg PlacedToken.start hfirst
          have hplace : place ≤ token.start := by
            rw [hstart]
            exact le_start_placedAfter place t
          rw [← hstart] at hrest
          refine encodeFrom_cons_eq_ok_iff.mpr ⟨hplace, flatten more, ih hrest, ?_⟩
          -- the step to the token is the one that the tuple tells
          simp only [Token.placed, placedAfter, PlacedToken.mk.injEq] at hfirst
          obtain ⟨hline, hcolumn, hlength, htype, hmodifiers⟩ := hfirst
          have hadvance : place.line < token.line ↔ 0 < t.deltaLine := by omega
          show t.deltaLine :: t.deltaStart :: t.length :: t.tokenType :: t.modifiers ::
            flatten more = _
          rw [hlength, htype, hmodifiers, hcolumn, if_congr hadvance rfl rfl, hline,
            Nat.add_sub_cancel_left, Nat.add_sub_cancel_left]

/-- The tuples of a stream stand for the tokens that have been encoded. -/
theorem placedFrom_regroup (place : Position) {tokens : List Token} {data : List Nat}
    (h : encodeFrom place.line place.column tokens = .ok data) :
    placedFrom place (regroup data) = tokens.map Token.placed := by
  induction tokens generalizing place data with
  | nil =>
      cases h
      rfl
  | cons t more ih =>
      obtain ⟨hplace, rest, hrest, rfl⟩ := encodeFrom_cons_eq_ok_iff.mp h
      rw [Position.le_def] at hplace
      simp only [Token.start] at hplace
      have hstep : placedAfter place ⟨t.line - place.line,
          t.column - (if place.line < t.line then 0 else place.column), t.length,
          t.category.index, t.modifiers.bits⟩ = t.placed := by
        simp only [placedAfter, Token.placed, PlacedToken.mk.injEq, Nat.sub_pos_iff_lt, and_true]
        refine ⟨by omega, ?_⟩
        split <;> omega
      simp only [regroup, placedFrom, hstep, List.map_cons]
      exact congrArg _ (ih t.start hrest)

/-! ## Both ways -/

/-- A stream of words that a decoder can read to its end: whole tuples, with categories of the
legend, that lead to no position beyond the words. -/
structure Readable (data : List Nat) : Prop where
  whole : stride ∣ data.length
  words : ∀ n ∈ data, n ≤ Word.limit
  places : ∀ p ∈ placedFrom ⟨0, 0⟩ (regroup data), p.line ≤ Word.limit ∧ p.column ≤ Word.limit
  categories : ∀ t ∈ regroup data, t.tokenType < Category.legend.length

namespace Readable

variable {data : List Nat}

theorem flatten_regroup_eq (h : Readable data) : flatten (regroup data) = data := by
  obtain ⟨n, hn⟩ := h.whole
  exact flatten_regroup hn

theorem decode_eq (h : Readable data) :
    decode data = .ok (placedFrom ⟨0, 0⟩ (regroup data)) := by
  have hdecode := decodeFrom_flatten h.places
  rwa [h.flatten_regroup_eq] at hdecode

/-- There are tokens that are sent as what a readable stream stands for. -/
theorem exists_tokens (h : Readable data) :
    ∃ tokens : List Token, tokens.map Token.placed = placedFrom ⟨0, 0⟩ (regroup data) := by
  have hwords : ∀ t ∈ regroup data, t.length ≤ Word.limit := by
    intro t ht
    have hmem : t.length ∈ flatten (regroup data) :=
      List.mem_flatMap.mpr ⟨t, ht, by simp [TokenTuple.toList]⟩
    rw [h.flatten_regroup_eq] at hmem
    exact h.words _ hmem
  have hall : ∀ p ∈ placedFrom ⟨0, 0⟩ (regroup data), ∃ t : Token, t.placed = p := by
    intro p hp
    obtain ⟨t, ht, hcategory, hlength⟩ := exists_tuple_of_mem_placedFrom hp
    refine PlacedToken.exists_token ?_ ?_
    · rw [hcategory]
      exact h.categories t ht
    · rw [hlength]
      exact hwords t ht
  exact (Set.range_list_map Token.placed).symm.subset hall

end Readable

/-- Encoding and decoding are inverse to one another. Tokens in the order of their positions have a
stream, and it decodes to their positions, their lengths in code units (a length that is no word is
the last word), their categories and their modifiers. A readable stream decodes to tokens in the
order of their positions, and whichever tokens are sent as these have this stream. So streams with
one meaning are one stream. -/
theorem encode_decode_inverse :
    (∀ tokens : List Token, (tokens.Pairwise fun a b => a.start ≤ b.start) →
      (∀ t ∈ tokens, t.line ≤ Word.limit ∧ t.column ≤ Word.limit) →
      ∃ data, encode tokens = .ok data ∧
        decode data = .ok (tokens.map fun t =>
          ⟨t.line, t.column, t.length, t.category.index, t.modifiers.bits⟩) ∧
        ∀ t ∈ tokens, t.length = Word.clamp (Text.unitCount t.text.toList)) ∧
    (∀ data, Readable data →
      ∃ placed, decode data = .ok placed ∧ placed = placedFrom ⟨0, 0⟩ (regroup data) ∧
        (placed.Pairwise fun a b => a.start ≤ b.start) ∧
        (∃ tokens : List Token, tokens.map Token.placed = placed) ∧
        ∀ tokens : List Token, tokens.map Token.placed = placed → encode tokens = .ok data) ∧
    ∀ a b, Readable a → Readable b → decode a = decode b → a = b := by
  refine ⟨?_, ?_, ?_⟩
  · intro tokens hordered hfit
    obtain ⟨data, hdata⟩ := encode_of_ordered hordered
    exact ⟨data, hdata, decodeFrom_encodeFrom hdata hfit, fun t _ => Text.width_eq _⟩
  · intro data hdata
    refine ⟨_, hdata.decode_eq, rfl, placedFrom_ordered _ _, hdata.exists_tokens, ?_⟩
    intro tokens htokens
    have hencode := encodeFrom_of_map_placed htokens
    rwa [hdata.flatten_regroup_eq] at hencode
  · intro a b ha hb h
    rw [ha.decode_eq, hb.decode_eq] at h
    calc a = flatten (regroup a) := ha.flatten_regroup_eq.symm
      _ = flatten (regroup b) := by rw [placedFrom_inj (Except.ok.inj h)]
      _ = b := hb.flatten_regroup_eq

/-- Two tokens at one position, and a step to the last position of all. -/
theorem encode_decode_inverse_lastPosition :
    Readable [0, 3, 2, 8, 2, 0, 0, 0, 4, 0, 4294967295, 4294967295, 1, 1, 1] ∧
      (∃ data, encode [⟨0, 3, "𝒳", .unknown, ⟨2⟩⟩, ⟨0, 3, "", .comment, .none⟩,
          ⟨4294967295, 4294967295, "x", .label, .declaration⟩] = .ok data ∧
        decode data = .ok [⟨0, 3, 2, 8, 2⟩, ⟨0, 3, 0, 4, 0⟩,
          ⟨4294967295, 4294967295, 1, 1, 1⟩]) ∧
      encode [⟨0, 3, "𝒳", .unknown, ⟨2⟩⟩, ⟨0, 3, "", .comment, .none⟩,
          ⟨4294967295, 4294967295, "x", .label, .declaration⟩] =
        .ok [0, 3, 2, 8, 2, 0, 0, 0, 4, 0, 4294967295, 4294967295, 1, 1, 1] := by
  have hreadable : Readable [0, 3, 2, 8, 2, 0, 0, 0, 4, 0, 4294967295, 4294967295, 1, 1, 1] :=
    ⟨by decide, by decide, by decide, by decide⟩
  obtain ⟨data, hencode, hdecode, -⟩ := encode_decode_inverse.1
    [⟨0, 3, "𝒳", .unknown, ⟨2⟩⟩, ⟨0, 3, "", .comment, .none⟩,
      ⟨4294967295, 4294967295, "x", .label, .declaration⟩] (by decide) (by decide)
  obtain ⟨placed, -, rfl, -, -, hback⟩ := encode_decode_inverse.2.1 _ hreadable
  exact ⟨hreadable, ⟨data, hencode, hdecode⟩, hback _ rfl⟩

end TokenStream

end AsmLens
