import AsmLens.Proofs.Json.Spelling
import AsmLens.Service

/-!
What messages mean to a session. `Message.Asks` tells it method by method: a message of that name,
with or without an identifier, whose parameters look so, asks a session for that. The service finds
the meaning of a message by its table of methods and their readers, and it finds exactly this one
(`Message.request?_eq_some_iff`).
-/

namespace AsmLens

open Shape (must may ofDocument ofPosition streaming Spells SpellsFields SpellsItems)

/-! ## The relation -/

/-- A document by the URI that it goes by, as a field of parameters. -/
def documentField (uri : String) : String × Json :=
  ("textDocument", .object [("uri", .string uri)])

/-- What a message asks a session for. Requests have an identifier, and notifications have none. -/
inductive Message.Asks (uris : UriReader) : Message → Request → Prop where
  | start {id : RequestId} {params : Json} {fields : List (String × Json)}
      (h : Spells uris .introduction params (.object fields)) :
      Asks uris ⟨some id, "initialize", some params⟩
        (.start (fields.lookup "initializationOptions"))
  | stop {id : RequestId} : Asks uris ⟨some id, "shutdown", none⟩ .stop
  | started {params : Json} (h : Spells uris (.record []) params (.object [])) :
      Asks uris ⟨none, "initialized", some params⟩ .started
  | openDocument {params : Json} {uri language text : String} {version : Int}
      (h : Spells uris (.record [must "textDocument" .openedDocument]) params
        (.object [("textDocument", .object [("uri", .string uri),
          ("languageId", .string language), ("version", .integer version),
          ("text", .string text)])])) :
      Asks uris ⟨none, "textDocument/didOpen", some params⟩ (.openDocument uri text)
  /-- Each change has a text, wherever the change is said to be. -/
  | changeDocument {params : Json} {uri : String} {version : Int} {changes : List Json}
      {texts : List String}
      (h : Spells uris (.record [must "textDocument" .versionedDocument,
          must "contentChanges" (.list (.record [may "range" .range, may "rangeLength" .word,
            must "text" .text]))]) params
        (.object [("textDocument", .object [("uri", .string uri), ("version", .integer version)]),
          ("contentChanges", .array changes)]))
      (htexts : List.Forall₂ (fun change text =>
        ∃ place, change = .object (place ++ [("text", .string text)])) changes texts) :
      Asks uris ⟨none, "textDocument/didChange", some params⟩ (.changeDocument uri texts)
  | closeDocument {params : Json} {uri : String}
      (h : Spells uris (.record ofDocument) params (.object [documentField uri])) :
      Asks uris ⟨none, "textDocument/didClose", some params⟩ (.closeDocument uri)
  | tokens {id : RequestId} {params : Json} {uri : String} {others : List (String × Json)}
      (h : Spells uris (.object (ofDocument ++ streaming)) params
        (.object (documentField uri :: others))) :
      Asks uris ⟨some id, "textDocument/semanticTokens/full", some params⟩ (.tokens uri)
  | tokenChanges {id : RequestId} {params : Json} {uri previous : String}
      {others : List (String × Json)}
      (h : Spells uris (.object (ofDocument ++ [must "previousResultId" .text] ++ streaming)) params
        (.object (documentField uri :: ("previousResultId", .string previous) :: others))) :
      Asks uris ⟨some id, "textDocument/semanticTokens/full/delta", some params⟩
        (.tokenChanges uri previous)
  | diagnostics {id : RequestId} {params : Json} {uri : String} {others : List (String × Json)}
      (h : Spells uris (.object (ofDocument ++
          [may "identifier" .text, may "previousResultId" .text] ++ streaming)) params
        (.object (documentField uri :: others))) :
      Asks uris ⟨some id, "textDocument/diagnostic", some params⟩ (.diagnostics uri)
  | completion {id : RequestId} {params : Json} {fields : List (String × Json)}
      (h : Spells uris (.object (ofPosition ++ [may "context" .completionContext] ++ streaming))
        params (.object fields)) :
      Asks uris ⟨some id, "textDocument/completion", some params⟩ .completion
  | resolve {id : RequestId} {params : Json} {label : String} {details : List (String × Json)}
      (h : Spells uris .completion params (.object (("label", .string label) :: details))) :
      Asks uris ⟨some id, "completionItem/resolve", some params⟩ (.resolve ⟨label, details⟩)

/-! ## What is kept of a record -/

namespace Shape

variable {uris : UriReader}

/-- The fields are what is kept of a record, however it was given. -/
def Keeps (uris : UriReader) (fields : List (String × Presence × Shape))
    (kept : List (String × Json)) : Prop :=
  (∃ given, SpellsFields uris fields given kept) ∨ ∃ items, SpellsItems uris fields items kept

variable {fields more : List (String × Presence × Shape)} {kept : List (String × Json)}
  {name : String} {shape : Shape} {value standard : Json}

theorem exists_keeps_of_record (h : Spells uris (.record fields) value standard) :
    ∃ kept, standard = .object kept ∧ Keeps uris fields kept := by
  simp only [Spells] at h
  obtain ⟨kept, ⟨given, -, hkept⟩ | ⟨items, -, hkept⟩, rfl⟩ := h
  · exact ⟨kept, rfl, Or.inl ⟨given, hkept⟩⟩
  · exact ⟨kept, rfl, Or.inr ⟨items, hkept⟩⟩

theorem exists_keeps_of_object (h : Spells uris (.object fields) value standard) :
    ∃ kept, standard = .object kept ∧ Keeps uris fields kept := by
  simp only [Spells] at h
  obtain ⟨given, kept, -, hkept, rfl⟩ := h
  exact ⟨kept, rfl, Or.inl ⟨given, hkept⟩⟩

theorem Keeps.eq_nil (h : Keeps uris [] kept) : kept = [] := by
  obtain ⟨given, h⟩ | ⟨items, h⟩ := h
  · simpa only [SpellsFields] using h
  · simp only [SpellsItems] at h
    exact h.2

/-- What is kept of the first field stands before what is kept of the others. -/
theorem Keeps.of_cons {presence : Presence}
    (h : Keeps uris ((name, presence, shape) :: more) kept) :
    ∃ value others, kept = withField name value others ∧ Keeps uris more others ∧
      (presence = .required → value.isSome) ∧
      ∀ standard ∈ value, ∃ given, Spells uris shape given standard := by
  have hvalue : ∀ found value, presence.Spells found (Spells uris shape) value →
      (presence = .required → value.isSome) ∧
        ∀ standard ∈ value, ∃ given, Spells uris shape given standard := by
    intro found value h
    cases value with
    | none => grind [Presence.Spells]
    | some standard =>
        obtain ⟨given, -, -, h⟩ := h
        exact ⟨fun _ => rfl, fun other hother => ⟨given, Option.mem_some.mp hother ▸ h⟩⟩
  obtain ⟨given, h⟩ | ⟨_ | ⟨item, items⟩, h⟩ := h
  · simp only [SpellsFields] at h
    obtain ⟨value, others, hfound, hmore, rfl⟩ := h
    exact ⟨value, others, rfl, Or.inl ⟨given, hmore⟩, hvalue _ _ hfound⟩
  · simp only [SpellsItems] at h
    obtain ⟨rfl, hmore⟩ := h
    exact ⟨none, kept, rfl, Or.inr ⟨[], hmore⟩, by simp, by simp⟩
  · simp only [SpellsItems] at h
    obtain ⟨value, others, hfound, hmore, rfl⟩ := h
    exact ⟨value, others, rfl, Or.inr ⟨items, hmore⟩, hvalue _ _ hfound⟩

/-- A field that has to be there is kept in its place. -/
theorem Keeps.of_must (h : Keeps uris (must name shape :: more) kept) :
    ∃ given standard others, kept = (name, standard) :: others ∧
      Spells uris shape given standard ∧ Keeps uris more others := by
  obtain ⟨value, others, rfl, hmore, hthere, hspells⟩ := h.of_cons
  obtain ⟨standard, rfl⟩ := Option.isSome_iff_exists.mp (hthere rfl)
  obtain ⟨given, hgiven⟩ := hspells standard rfl
  exact ⟨given, standard, others, rfl, hgiven, hmore⟩

/-- No other fields are kept. -/
theorem Keeps.name_mem (h : Keeps uris fields kept) :
    ∀ entry ∈ kept, entry.1 ∈ fields.map (·.1) := by
  induction fields generalizing kept with
  | nil => simp [h.eq_nil]
  | cons field more ih =>
      obtain ⟨value, others, rfl, hmore, -, -⟩ := h.of_cons
      intro entry hentry
      rw [List.map_cons, List.mem_cons]
      cases value with
      | none => exact Or.inr (ih hmore entry hentry)
      | some standard =>
          rcases List.mem_cons.mp hentry with rfl | hentry
          · exact Or.inl rfl
          · exact Or.inr (ih hmore entry hentry)

/-- A field that has to be there is kept behind what is kept of the fields before it. -/
theorem Keeps.of_append_must (h : Keeps uris (fields ++ [must name shape]) kept)
    (hname : name ∉ fields.map (·.1)) :
    ∃ before given standard, kept = before ++ [(name, standard)] ∧
      kept.lookup name = some standard ∧ Spells uris shape given standard := by
  induction fields generalizing kept with
  | nil =>
      obtain ⟨given, standard, others, rfl, hspells, hmore⟩ := h.of_must
      rw [hmore.eq_nil]
      exact ⟨[], given, standard, rfl, List.lookup_cons_self, hspells⟩
  | cons field more ih =>
      rw [List.map_cons, List.mem_cons, not_or] at hname
      obtain ⟨value, others, rfl, hmore, -, -⟩ := h.of_cons
      obtain ⟨before, given, standard, rfl, hlookup, hspells⟩ := ih hmore hname.2
      cases value with
      | none => exact ⟨before, given, standard, rfl, hlookup, hspells⟩
      | some first =>
          refine ⟨(field.1, first) :: before, given, standard, rfl, ?_, hspells⟩
          rw [withField, List.lookup_cons, beq_false_of_ne hname.1]
          exact hlookup

/-- The items of a list have one shape. -/
theorem exists_items_of_list (h : Spells uris (.list shape) value standard) :
    ∃ kept, standard = .array kept ∧ ∀ one ∈ kept, ∃ given, Spells uris shape given one := by
  simp only [Spells] at h
  obtain ⟨values, kept, -, hkept, rfl⟩ := h
  refine ⟨kept, rfl, ?_⟩
  induction hkept with
  | nil => simp
  | cons hone hmore ih => exact List.forall_mem_cons.mpr ⟨⟨_, hone⟩, ih⟩

/-- The URI of a document is spelled normally. -/
theorem exists_uri_of_spells (h : Spells uris .uri value standard) :
    ∃ uri, standard = .string uri ∧ uris.normal? uri = some uri := by
  simp only [Spells] at h
  obtain ⟨spelled, normal, -, hnormal, rfl⟩ := h
  exact ⟨normal, rfl, uris.stable hnormal⟩

theorem exists_text_of_spells (h : Spells uris .text value standard) :
    ∃ text, standard = .string text := by
  simp only [Spells] at h
  obtain ⟨text, -, rfl⟩ := h
  exact ⟨text, rfl⟩

theorem exists_int_of_spells {least greatest : Int}
    (h : Spells uris (.integer least greatest) value standard) :
    ∃ n, standard = .integer n := by
  simp only [Spells] at h
  obtain ⟨n, -, -, -, rfl⟩ := h
  exact ⟨n, rfl⟩

/-- Parameters that begin with a document. -/
theorem Keeps.of_document (h : Keeps uris (ofDocument ++ more) kept) :
    ∃ uri others, kept = documentField uri :: others ∧ uris.normal? uri = some uri ∧
      Keeps uris more others := by
  obtain ⟨_, document, others, rfl, hdocument, hmore⟩ := h.of_must
  obtain ⟨fields, rfl, hfields⟩ := exists_keeps_of_record hdocument
  obtain ⟨_, spelled, rest, rfl, huri, hrest⟩ := hfields.of_must
  obtain ⟨uri, rfl, hnormal⟩ := exists_uri_of_spells huri
  rw [hrest.eq_nil]
  exact ⟨uri, others, rfl, hnormal, hmore⟩

end Shape

/-! ## The readers of parameters -/

namespace Protocol.CompletionItem

variable {uris : UriReader} {value standard : Json}

/-- What is kept of an item is its label, and other fields behind it. -/
theorem exists_label_of_spells (h : Spells uris .completion value standard) :
    ∃ label details, standard = .object (("label", .string label) :: details) ∧
      ∀ field ∈ details, field.1 ≠ "label" := by
  obtain ⟨_, rfl, hkept⟩ := Shape.exists_keeps_of_record h
  obtain ⟨_, _, details, rfl, hlabel, hmore⟩ := hkept.of_must
  obtain ⟨label, rfl⟩ := Shape.exists_text_of_spells hlabel
  refine ⟨label, details, rfl, ?_⟩
  intro field hfield heq
  have hname := hmore.name_mem field hfield
  rw [heq] at hname
  revert hname
  decide

theorem read?_eq_some_iff {item : CompletionItem} :
    read? uris value = some item ↔
      Spells uris .completion value (.object (("label", .string item.label) :: item.details)) := by
  have hread : ∀ {label details}, (∀ field ∈ details, field.1 ≠ "label") →
      Shape.completion.read uris value = some (.object (("label", .string label) :: details)) →
      read? uris value = some ⟨label, details⟩ := by
    intro label details hdetails h
    have hfilter : details.filter (fun field => field.1 ≠ "label") = details := by
      simpa [List.filter_eq_self] using hdetails
    rw [read?, h]
    show some (CompletionItem.mk label (details.filter fun field => field.1 ≠ "label")) = _
    rw [hfilter]
  constructor
  · intro h
    obtain ⟨standard, hstandard, -⟩ := Option.bind_eq_some_iff.mp h
    obtain ⟨label, details, rfl, hdetails⟩ :=
      exists_label_of_spells ((Shape.read_eq_some_iff ..).mp hstandard)
    cases h.symm.trans (hread hdetails hstandard)
    exact (Shape.read_eq_some_iff ..).mp hstandard
  · intro h
    obtain ⟨label, details, hsame, hdetails⟩ := exists_label_of_spells h
    cases item
    cases hsame
    exact hread hdetails ((Shape.read_eq_some_iff ..).mpr h)

end Protocol.CompletionItem

namespace Params

variable {uris : UriReader} {params standard : Json} {request : Request}

/-- The texts of records that end with one. -/
theorem mapM_text_eq_some_iff (fields : List (String × Presence × Shape))
    (hname : "text" ∉ fields.map (·.1)) {changes : List Json}
    (h : ∀ change ∈ changes, ∃ given,
      Spells uris (.record (fields ++ [must "text" .text])) given change) (texts : List String) :
    changes.mapM (string? · "text") = some texts ↔
      List.Forall₂ (fun change text =>
        ∃ place, change = .object (place ++ [("text", .string text)])) changes texts := by
  have hends : ∀ change ∈ changes, ∀ text, string? change "text" = some text ↔
      ∃ place, change = .object (place ++ [("text", .string text)]) := by
    intro change hchange text
    obtain ⟨given, hgiven⟩ := h change hchange
    obtain ⟨kept, rfl, hkept⟩ := Shape.exists_keeps_of_record hgiven
    obtain ⟨before, _, _, rfl, hlookup, hspells⟩ := hkept.of_append_must hname
    obtain ⟨last, rfl⟩ := Shape.exists_text_of_spells hspells
    have hlast : string? (.object (before ++ [("text", .string last)])) "text" = some last := by
      rw [string?, Json.field?, hlookup]
      rfl
    rw [hlast]
    constructor
    · rintro ⟨⟩
      exact ⟨before, rfl⟩
    · rintro ⟨place, hsame⟩
      have hpair := (List.append_inj' (Json.object.inj hsame) rfl).2
      cases hpair
      rfl
  rw [mapM_eq_some_iff_forall₂ fun _ _ => Iff.rfl]
  constructor
  · intro hall
    have hboth := (List.forall₂_and_left changes texts).mpr ⟨hends, hall⟩
    exact hboth.imp fun change text hboth => (hboth.1 text).mp hboth.2
  · intro hall
    have hboth := (List.forall₂_and_left changes texts).mpr ⟨hends, hall⟩
    exact hboth.imp fun change text hboth => (hboth.1 text).mpr hboth.2

theorem asks_of_start? (h : start? uris params = some request) (id : RequestId) :
    Message.Asks uris ⟨some id, "initialize", some params⟩ request := by
  obtain ⟨standard, hread, rfl⟩ := Option.map_eq_some_iff.mp h
  rw [Shape.read_eq_some_iff] at hread
  obtain ⟨fields, rfl, -⟩ := Shape.exists_keeps_of_record hread
  exact .start hread

theorem asks_of_started? (h : started? uris params = some request) :
    Message.Asks uris ⟨none, "initialized", some params⟩ request := by
  rw [started?, Option.ite_none_right_eq_some, Shape.accepts, Option.isSome_iff_exists] at h
  obtain ⟨⟨standard, hread⟩, hrequest⟩ := h
  rw [Shape.read_eq_some_iff] at hread
  obtain ⟨kept, rfl, hkept⟩ := Shape.exists_keeps_of_record hread
  rw [hkept.eq_nil] at hread
  cases hrequest
  exact .started hread

theorem exists_of_openDocument (h : Spells uris openDocumentShape params standard) :
    ∃ uri language version text, uris.normal? uri = some uri ∧
      standard = .object [("textDocument", .object [("uri", .string uri),
        ("languageId", .string language), ("version", .integer version),
        ("text", .string text)])] := by
  obtain ⟨_, rfl, hkept⟩ := Shape.exists_keeps_of_record h
  obtain ⟨_, _, _, rfl, hopened, hkept⟩ := hkept.of_must
  obtain rfl := hkept.eq_nil
  obtain ⟨_, rfl, hfields⟩ := Shape.exists_keeps_of_record hopened
  obtain ⟨_, _, _, rfl, huri, hfields⟩ := hfields.of_must
  obtain ⟨_, _, _, rfl, hlanguage, hfields⟩ := hfields.of_must
  obtain ⟨_, _, _, rfl, hversion, hfields⟩ := hfields.of_must
  obtain ⟨_, _, _, rfl, htext, hfields⟩ := hfields.of_must
  obtain rfl := hfields.eq_nil
  obtain ⟨uri, rfl, hnormal⟩ := Shape.exists_uri_of_spells huri
  obtain ⟨language, rfl⟩ := Shape.exists_text_of_spells hlanguage
  obtain ⟨version, rfl⟩ := Shape.exists_int_of_spells hversion
  obtain ⟨text, rfl⟩ := Shape.exists_text_of_spells htext
  exact ⟨uri, language, version, text, hnormal, rfl⟩

theorem asks_of_openDocument? (h : openDocument? uris params = some request) :
    Message.Asks uris ⟨none, "textDocument/didOpen", some params⟩ request := by
  simp only [openDocument?, Option.bind_eq_bind, Option.bind_eq_some_iff,
    Shape.read_eq_some_iff] at h
  obtain ⟨standard, hread, document, hdocument, uri, huri, text, htext, hrequest⟩ := h
  obtain ⟨_, _, _, _, -, rfl⟩ := exists_of_openDocument hread
  cases hdocument
  cases huri
  cases htext
  cases hrequest
  exact .openDocument hread

theorem exists_of_changeDocument (h : Spells uris changeDocumentShape params standard) :
    ∃ uri version changes, uris.normal? uri = some uri ∧
      standard = .object [("textDocument", .object [("uri", .string uri),
        ("version", .integer version)]), ("contentChanges", .array changes)] ∧
      ∀ texts, changes.mapM (string? · "text") = some texts ↔
        List.Forall₂ (fun change text =>
          ∃ place, change = .object (place ++ [("text", .string text)])) changes texts := by
  obtain ⟨_, rfl, hkept⟩ := Shape.exists_keeps_of_record h
  obtain ⟨_, _, _, rfl, hversioned, hkept⟩ := hkept.of_must
  obtain ⟨_, _, _, rfl, hlist, hkept⟩ := hkept.of_must
  obtain rfl := hkept.eq_nil
  obtain ⟨_, rfl, hfields⟩ := Shape.exists_keeps_of_record hversioned
  obtain ⟨_, _, _, rfl, huri, hfields⟩ := hfields.of_must
  obtain ⟨_, _, _, rfl, hversion, hfields⟩ := hfields.of_must
  obtain rfl := hfields.eq_nil
  obtain ⟨uri, rfl, hnormal⟩ := Shape.exists_uri_of_spells huri
  obtain ⟨version, rfl⟩ := Shape.exists_int_of_spells hversion
  obtain ⟨changes, rfl, hchanges⟩ := Shape.exists_items_of_list hlist
  exact ⟨uri, version, changes, hnormal, rfl,
    mapM_text_eq_some_iff [may "range" .range, may "rangeLength" .word] (by decide) hchanges⟩

theorem asks_of_changeDocument? (h : changeDocument? uris params = some request) :
    Message.Asks uris ⟨none, "textDocument/didChange", some params⟩ request := by
  simp only [changeDocument?, Option.bind_eq_bind, Option.bind_eq_some_iff,
    Shape.read_eq_some_iff] at h
  obtain ⟨standard, hread, listed, hlisted, changes, hchanges, uri, huri, texts, htexts,
    hrequest⟩ := h
  obtain ⟨_, _, _, -, rfl, hplaces⟩ := exists_of_changeDocument hread
  cases hlisted
  cases hchanges
  cases huri
  cases hrequest
  exact .changeDocument hread ((hplaces texts).mp htexts)

theorem asks_of_closeDocument? (h : closeDocument? uris params = some request) :
    Message.Asks uris ⟨none, "textDocument/didClose", some params⟩ request := by
  simp only [closeDocument?, Option.bind_eq_bind, Option.bind_eq_some_iff,
    Shape.read_eq_some_iff] at h
  obtain ⟨standard, hread, uri, huri, hrequest⟩ := h
  obtain ⟨kept, rfl, hkept⟩ := Shape.exists_keeps_of_record hread
  rw [← List.append_nil ofDocument] at hkept
  obtain ⟨_, others, rfl, -, hmore⟩ := hkept.of_document
  obtain rfl := hmore.eq_nil
  cases huri
  cases hrequest
  exact .closeDocument hread

theorem asks_of_tokens? (h : tokens? uris params = some request) (id : RequestId) :
    Message.Asks uris ⟨some id, "textDocument/semanticTokens/full", some params⟩ request := by
  simp only [tokens?, Option.bind_eq_bind, Option.bind_eq_some_iff, Shape.read_eq_some_iff] at h
  obtain ⟨standard, hread, uri, huri, hrequest⟩ := h
  obtain ⟨kept, rfl, hkept⟩ := Shape.exists_keeps_of_object hread
  obtain ⟨_, others, rfl, -, -⟩ := hkept.of_document
  cases huri
  cases hrequest
  exact .tokens hread

theorem asks_of_tokenChanges? (h : tokenChanges? uris params = some request) (id : RequestId) :
    Message.Asks uris ⟨some id, "textDocument/semanticTokens/full/delta", some params⟩
      request := by
  simp only [tokenChanges?, Option.bind_eq_bind, Option.bind_eq_some_iff,
    Shape.read_eq_some_iff] at h
  obtain ⟨standard, hread, uri, huri, previous, hprevious, hrequest⟩ := h
  obtain ⟨kept, rfl, hkept⟩ := Shape.exists_keeps_of_object hread
  rw [List.append_assoc] at hkept
  obtain ⟨_, _, rfl, -, hmore⟩ := hkept.of_document
  obtain ⟨_, _, others, rfl, hsent, -⟩ := hmore.of_must
  obtain ⟨_, rfl⟩ := Shape.exists_text_of_spells hsent
  cases huri
  cases hprevious
  cases hrequest
  exact .tokenChanges hread

theorem asks_of_diagnostics? (h : diagnostics? uris params = some request) (id : RequestId) :
    Message.Asks uris ⟨some id, "textDocument/diagnostic", some params⟩ request := by
  simp only [diagnostics?, Option.bind_eq_bind, Option.bind_eq_some_iff,
    Shape.read_eq_some_iff] at h
  obtain ⟨standard, hread, uri, huri, hrequest⟩ := h
  obtain ⟨kept, rfl, hkept⟩ := Shape.exists_keeps_of_object hread
  rw [List.append_assoc] at hkept
  obtain ⟨_, others, rfl, -, -⟩ := hkept.of_document
  cases huri
  cases hrequest
  exact .diagnostics hread

theorem asks_of_completion? (h : completion? uris params = some request) (id : RequestId) :
    Message.Asks uris ⟨some id, "textDocument/completion", some params⟩ request := by
  rw [completion?, Option.ite_none_right_eq_some, Shape.accepts, Option.isSome_iff_exists] at h
  obtain ⟨⟨standard, hread⟩, hrequest⟩ := h
  rw [Shape.read_eq_some_iff] at hread
  obtain ⟨fields, rfl, -⟩ := Shape.exists_keeps_of_object hread
  cases hrequest
  exact .completion hread

theorem asks_of_resolve? (h : resolve? uris params = some request) (id : RequestId) :
    Message.Asks uris ⟨some id, "completionItem/resolve", some params⟩ request := by
  obtain ⟨item, hread, rfl⟩ := Option.map_eq_some_iff.mp h
  exact .resolve (Protocol.CompletionItem.read?_eq_some_iff.mp hread)

end Params

/-! ## The meaning that the service finds -/

namespace Method

/-- The request that a message of a method stands for. What asks for an answer has an identifier,
and what only tells something has none. -/
def request? (uris : UriReader) (method : Method) (m : Message) : Option Request :=
  match method with
  | .request read => if m.id.isSome then m.params.bind (read uris) else none
  | .notification read => if m.id.isNone then m.params.bind (read uris) else none
  | .requestElsewhere _ => none
  | .notificationElsewhere => none

/-- A method of other servers is none of the session. -/
theorem request?_of_elsewhere? {name : String} {method : Method} (h : elsewhere? name = some method)
    (uris : UriReader) (m : Message) : method.request? uris m = none := by
  unfold elsewhere? at h
  split at h
  · cases h
    rfl
  · split at h
    · cases h
      rfl
    · cases h

end Method

namespace Message

/-- The request that the service takes a message for. -/
def request? (uris : UriReader) (m : Message) : Option Request :=
  match m.method with
  | "initialize" => if m.id.isSome then m.params.bind (Params.start? uris) else none
  | "shutdown" => if m.id.isSome && m.params.isNone then some .stop else none
  | name => (Method.find? name).bind fun method => method.request? uris m

variable {uris : UriReader} {m : Message} {request : Request}

theorem request?_of_ne (hstart : m.method ≠ "initialize") (hstop : m.method ≠ "shutdown") :
    m.request? uris = (Method.find? m.method).bind fun method => method.request? uris m := by
  unfold request?
  split
  · next h => exact absurd h hstart
  · next h => exact absurd h hstop
  · rfl

/-- Whatever a message asks for, the service finds it. -/
theorem Asks.request?_eq (h : m.Asks uris request) : m.request? uris = some request := by
  cases h with
  | start h =>
      show Params.start? uris _ = _
      rw [Params.start?, (Shape.read_eq_some_iff ..).mpr h]
      rfl
  | stop => rfl
  | started h =>
      show Params.started? uris _ = _
      rw [Params.started?, Shape.accepts, (Shape.read_eq_some_iff ..).mpr h]
      rfl
  | openDocument h =>
      show Params.openDocument? uris _ = _
      rw [Params.openDocument?, Params.openDocumentShape, (Shape.read_eq_some_iff ..).mpr h]
      rfl
  | changeDocument h htexts =>
      show Params.changeDocument? uris _ = _
      obtain ⟨_, _, _, -, hsame, hplaces⟩ := Params.exists_of_changeDocument h
      cases hsame
      simp only [Params.changeDocument?, Option.bind_eq_bind, Option.bind_eq_some_iff]
      exact ⟨_, (Shape.read_eq_some_iff ..).mpr h, _, rfl, _, rfl, _, rfl, _,
        (hplaces _).mpr htexts, rfl⟩
  | closeDocument h =>
      show Params.closeDocument? uris _ = _
      rw [Params.closeDocument?, (Shape.read_eq_some_iff ..).mpr h]
      rfl
  | tokens h =>
      show Params.tokens? uris _ = _
      rw [Params.tokens?, Params.tokensShape, (Shape.read_eq_some_iff ..).mpr h]
      rfl
  | tokenChanges h =>
      show Params.tokenChanges? uris _ = _
      rw [Params.tokenChanges?, Params.tokenChangesShape, (Shape.read_eq_some_iff ..).mpr h]
      rfl
  | diagnostics h =>
      show Params.diagnostics? uris _ = _
      rw [Params.diagnostics?, Params.diagnosticsShape, (Shape.read_eq_some_iff ..).mpr h]
      rfl
  | completion h =>
      show Params.completion? uris _ = _
      rw [Params.completion?, Params.completionShape, Shape.accepts,
        (Shape.read_eq_some_iff ..).mpr h]
      rfl
  | @resolve _ params label details h =>
      have hitem : Protocol.CompletionItem.read? uris params = some ⟨label, details⟩ :=
        Protocol.CompletionItem.read?_eq_some_iff.mpr h
      show Params.resolve? uris _ = _
      rw [Params.resolve?, hitem]
      rfl

section

variable {name : String} {read : UriReader → Json → Option Request} (hname : m.method = name)

include hname

/-- A request means what its parameters mean. -/
theorem Asks.of_request (h : Method.request? uris (.request read) m = some request)
    (hasks : ∀ {params}, read uris params = some request →
      ∀ id, Asks uris ⟨some id, name, some params⟩ request) : m.Asks uris request := by
  obtain ⟨id, _, params⟩ := m
  obtain rfl := hname
  obtain ⟨hid, hread⟩ := Option.ite_none_right_eq_some.mp h
  obtain ⟨id, rfl⟩ := Option.isSome_iff_exists.mp hid
  obtain ⟨params, rfl, hread⟩ := Option.bind_eq_some_iff.mp hread
  exact hasks hread id

/-- A notification means what its parameters mean. -/
theorem Asks.of_notification (h : Method.request? uris (.notification read) m = some request)
    (hasks : ∀ {params}, read uris params = some request →
      Asks uris ⟨none, name, some params⟩ request) : m.Asks uris request := by
  obtain ⟨id, _, params⟩ := m
  obtain rfl := hname
  obtain ⟨hid, hread⟩ := Option.ite_none_right_eq_some.mp h
  obtain rfl := Option.isNone_iff_eq_none.mp hid
  obtain ⟨params, rfl, hread⟩ := Option.bind_eq_some_iff.mp hread
  exact hasks hread

end

/-- The service finds nothing else. -/
theorem asks_of_request? (h : m.request? uris = some request) : m.Asks uris request := by
  unfold request? at h
  split at h
  · next hname => exact .of_request hname h Params.asks_of_start?
  · next hname =>
    obtain ⟨id, _, params⟩ := m
    obtain rfl := hname
    simp only [Bool.and_eq_true, Option.isSome_iff_exists, Option.isNone_iff_eq_none,
      Option.ite_none_right_eq_some] at h
    obtain ⟨⟨⟨id, rfl⟩, rfl⟩, hrequest⟩ := h
    cases hrequest
    exact .stop
  · obtain ⟨method, hfind, hread⟩ := Option.bind_eq_some_iff.mp h
    unfold Method.find? at hfind
    split at hfind <;> try cases hfind
    · next hname => exact .of_notification hname hread Params.asks_of_started?
    · next hname => exact .of_notification hname hread Params.asks_of_openDocument?
    · next hname => exact .of_notification hname hread Params.asks_of_changeDocument?
    · next hname => exact .of_notification hname hread Params.asks_of_closeDocument?
    · next hname => exact .of_request hname hread Params.asks_of_tokens?
    · next hname => exact .of_request hname hread Params.asks_of_tokenChanges?
    · next hname => exact .of_request hname hread Params.asks_of_diagnostics?
    · next hname => exact .of_request hname hread Params.asks_of_completion?
    · next hname => exact .of_request hname hread Params.asks_of_resolve?
    · rw [Method.request?_of_elsewhere? hfind] at hread
      cases hread

theorem request?_eq_some_iff : m.request? uris = some request ↔ m.Asks uris request :=
  ⟨asks_of_request?, Asks.request?_eq⟩

/-- What ends a service or is to stop an answer is nothing to the session. -/
theorem request?_eq_none (h : m.method = "exit" ∨ m.method = "$/cancelRequest") :
    m.request? uris = none := by
  have hfind : Method.find? m.method = Method.elsewhere? m.method := by
    rcases h with h | h <;> simp [h, Method.find?]
  rw [request?_of_ne (by rcases h with h | h <;> simp [h]) (by rcases h with h | h <;> simp [h]),
    hfind, Option.bind_eq_none_iff]
  exact fun _ helsewhere => Method.request?_of_elsewhere? helsewhere uris m

/-- A message asks for one thing at most. -/
theorem Asks.unique {other : Request} (h : m.Asks uris request) (hother : m.Asks uris other) :
    request = other :=
  Option.some.inj (h.request?_eq.symm.trans hother.request?_eq)

/-- A document is opened under the normal spelling of its URI. -/
theorem Asks.normal_of_openDocument {uri text : String} (h : m.Asks uris (.openDocument uri text)) :
    uris.normal? uri = some uri := by
  cases h with
  | openDocument h =>
      obtain ⟨_, _, _, _, hnormal, hsame⟩ := Params.exists_of_openDocument h
      cases hsame
      exact hnormal

theorem Asks.normal_of_changeDocument {uri : String} {texts : List String}
    (h : m.Asks uris (.changeDocument uri texts)) : uris.normal? uri = some uri := by
  cases h with
  | changeDocument h _ =>
      obtain ⟨_, _, _, hnormal, hsame, -⟩ := Params.exists_of_changeDocument h
      cases hsame
      exact hnormal

theorem Asks.method_eq_initialize {options : Option Json} (h : m.Asks uris (.start options)) :
    m.method = "initialize" := by
  cases h
  rfl

theorem Asks.method_ne_initialize (h : m.Asks uris request)
    (hrequest : ∀ options, request ≠ .start options) : m.method ≠ "initialize" := by
  cases h with
  | start => exact absurd rfl (hrequest _)
  | _ => simp

end Message

end AsmLens
