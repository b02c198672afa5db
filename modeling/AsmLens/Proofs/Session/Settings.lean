import AsmLens.Proofs.Session.Run

/-!
The settings of a session. `Config.Accepted` lists the settings that are taken over, with what they
come to, and `Config.Offence` lists what is wrong with the others; both speak of the value that is
sent and not of how it is read. Whatever is sent falls under one of the two
(`Config.accepted_or_offence`), and reading it finds out which.
-/

namespace AsmLens

/-- A value that is neither true nor false. -/
def Json.NoFlag (value : Json) : Prop := ∀ b, value ≠ .bool b

/-- A value that can hold no settings at all. -/
def Json.NoSettings (value : Json) : Prop :=
  value ≠ .null ∧ (∀ fields, value ≠ .object fields) ∧ ∀ items, value ≠ .array items

namespace Config

/-! ## What may be sent -/

/-- One setting, where it is given and where it is not. -/
inductive Setting : Option Json → Bool → Prop
  | missing : Setting none true
  | given (value : Bool) : Setting (some (.bool value)) value

/-- Settings that are taken over, and what they come to. -/
inductive Accepted : Option Json → Config → Prop
  | absent : Accepted none ⟨true, true⟩
  | null : Accepted (some .null) ⟨true, true⟩
  /-- The other fields of an object may hold anything. -/
  | object {fields : List (String × Json)} {first second : Bool}
      (hfirst : Setting (fields.lookup "labelDiagnostics") first)
      (hsecond : Setting (fields.lookup "semanticTokensDelta") second) :
      Accepted (some (.object fields)) ⟨first, second⟩
  | array (flags : List Bool) (hlength : flags.length ≤ 2) :
      Accepted (some (.array (flags.map .bool))) ⟨flags[0]?.getD true, flags[1]?.getD true⟩

/-- The first thing that is wrong with settings. -/
inductive Offence : Option Json → ConfigError → Prop
  | kind {value : Json} (hvalue : value.NoSettings) :
      Offence (some value) (.wrongKind value .settings)
  | labelDiagnostics {fields : List (String × Json)} {value : Json}
      (hfirst : fields.lookup "labelDiagnostics" = some value) (hvalue : value.NoFlag) :
      Offence (some (.object fields)) (.wrongKind value .flag)
  | semanticTokensDelta {fields : List (String × Json)} {first : Bool} {value : Json}
      (hfirst : Setting (fields.lookup "labelDiagnostics") first)
      (hsecond : fields.lookup "semanticTokensDelta" = some value) (hvalue : value.NoFlag) :
      Offence (some (.object fields)) (.wrongKind value .flag)
  /-- One of the first two items, with nothing wrong before it. -/
  | item (before : List Bool) {value : Json} (after : List Json) (hbefore : before.length < 2)
      (hvalue : value.NoFlag) :
      Offence (some (.array (before.map .bool ++ value :: after))) (.wrongKind value .flag)
  /-- The items past the second may hold anything; there may not be any. -/
  | length (first second : Bool) {more : List Json} (hmore : more ≠ []) :
      Offence (some (.array (.bool first :: .bool second :: more)))
        (.tooManyItems (more.length + 2))

theorem flag_of_setting {value : Option Json} {b : Bool} (h : Setting value b) :
    flag value = .ok b := by
  cases h with
  | missing => rfl
  | given => rfl

theorem flag_of_noFlag {value : Json} (h : value.NoFlag) :
    flag (some value) = .error (.wrongKind value .flag) := by
  cases value with
  | bool b => exact absurd rfl (h b)
  | _ => rfl

/-! ## How it is read -/

/-- Settings that fit are taken over. -/
theorem ofOptions_of_accepted {options : Option Json} {config : Config}
    (h : Accepted options config) : ofOptions options = .ok config := by
  cases h with
  | absent => rfl
  | null => rfl
  | object hfirst hsecond =>
      simp only [ofOptions, flag_of_setting hfirst, flag_of_setting hsecond]
      rfl
  | array flags hlength =>
      match flags, hlength with
      | [], _ => rfl
      | [_], _ => rfl
      | [_, _], _ => rfl

/-- Settings that do not fit are turned down for the first thing that is wrong with them. -/
theorem ofOptions_of_offence {options : Option Json} {cause : ConfigError}
    (h : Offence options cause) : ofOptions options = .error cause := by
  cases h with
  | @kind value hvalue =>
      cases value with
      | null => exact absurd rfl hvalue.1
      | object fields => exact absurd rfl (hvalue.2.1 fields)
      | array items => exact absurd rfl (hvalue.2.2 items)
      | _ => rfl
  | labelDiagnostics hfirst hvalue =>
      simp only [ofOptions, hfirst, flag_of_noFlag hvalue]
      rfl
  | semanticTokensDelta hfirst hsecond hvalue =>
      simp only [ofOptions, flag_of_setting hfirst, hsecond, flag_of_noFlag hvalue]
      rfl
  | item before after hbefore hvalue =>
      match before, hbefore with
      | [], _ =>
          simp only [ofOptions, List.map_nil, List.nil_append, List.getElem?_cons_zero,
            flag_of_noFlag hvalue]
          rfl
      | [first], _ =>
          simp only [ofOptions, List.map_cons, List.map_nil, List.cons_append, List.nil_append,
            List.getElem?_cons_zero, List.getElem?_cons_succ, flag_of_setting (.given first),
            flag_of_noFlag hvalue]
          rfl
  | @length first second more hmore =>
      have hmany : 2 < (Json.bool first :: .bool second :: more).length := by
        have := List.length_pos_of_ne_nil hmore
        simp only [List.length_cons]
        omega
      simp only [ofOptions, List.getElem?_cons_zero, List.getElem?_cons_succ,
        flag_of_setting (.given first), flag_of_setting (.given second), if_pos hmany]
      rfl

/-! ## One or the other -/

theorem isFlag_or_noFlag (value : Json) : (∃ b, value = .bool b) ∨ value.NoFlag := by
  cases value with
  | bool b => exact Or.inl ⟨b, rfl⟩
  | _ => exact Or.inr nofun

theorem setting_or_noFlag (value : Option Json) :
    (∃ b, Setting value b) ∨ ∃ found, value = some found ∧ found.NoFlag := by
  rcases value with _ | found
  · exact Or.inl ⟨true, .missing⟩
  · rcases isFlag_or_noFlag found with ⟨b, rfl⟩ | hfound
    · exact Or.inl ⟨b, .given b⟩
    · exact Or.inr ⟨found, rfl, hfound⟩

/-- The items of an array are looked at from the first; a third one is an offence of its own. -/
theorem accepted_or_offence_array (items : List Json) :
    (∃ config, Accepted (some (.array items)) config) ∨
      ∃ cause, Offence (some (.array items)) cause := by
  match items with
  | [] => exact Or.inl ⟨_, .array [] (by simp)⟩
  | first :: rest =>
      rcases isFlag_or_noFlag first with ⟨b, rfl⟩ | hfirst
      · match rest with
        | [] => exact Or.inl ⟨_, .array [b] (by simp)⟩
        | second :: more =>
            rcases isFlag_or_noFlag second with ⟨c, rfl⟩ | hsecond
            · by_cases hmore : more = []
              · subst hmore
                exact Or.inl ⟨_, .array [b, c] (by simp)⟩
              · exact Or.inr ⟨_, .length b c hmore⟩
            · exact Or.inr ⟨_, .item [b] more (by simp) hsecond⟩
      · exact Or.inr ⟨_, .item [] rest (by simp) hfirst⟩

/-- Whatever is sent fits, or something is wrong with it. -/
theorem accepted_or_offence (options : Option Json) :
    (∃ config, Accepted options config) ∨ ∃ cause, Offence options cause := by
  rcases options with _ | value
  · exact Or.inl ⟨_, .absent⟩
  cases value with
  | null => exact Or.inl ⟨_, .null⟩
  | array items => exact accepted_or_offence_array items
  | object fields =>
      rcases setting_or_noFlag (fields.lookup "labelDiagnostics") with
        ⟨first, hfirst⟩ | ⟨found, hfirst, hvalue⟩
      · rcases setting_or_noFlag (fields.lookup "semanticTokensDelta") with
          ⟨second, hsecond⟩ | ⟨found, hsecond, hvalue⟩
        · exact Or.inl ⟨_, .object hfirst hsecond⟩
        · exact Or.inr ⟨_, .semanticTokensDelta hfirst hsecond hvalue⟩
      · exact Or.inr ⟨_, .labelDiagnostics hfirst hvalue⟩
  | _ => exact Or.inr ⟨_, .kind ⟨nofun, nofun, nofun⟩⟩

theorem ofOptions_eq_ok_iff {options : Option Json} {config : Config} :
    ofOptions options = .ok config ↔ Accepted options config := by
  refine ⟨fun h => ?_, ofOptions_of_accepted⟩
  rcases accepted_or_offence options with ⟨taken, htaken⟩ | ⟨cause, hcause⟩
  · cases h.symm.trans (ofOptions_of_accepted htaken)
    exact htaken
  · cases h.symm.trans (ofOptions_of_offence hcause)

theorem ofOptions_eq_error_iff {options : Option Json} {cause : ConfigError} :
    ofOptions options = .error cause ↔ Offence options cause := by
  refine ⟨fun h => ?_, ofOptions_of_offence⟩
  rcases accepted_or_offence options with ⟨taken, htaken⟩ | ⟨found, hfound⟩
  · cases h.symm.trans (ofOptions_of_accepted htaken)
  · cases h.symm.trans (ofOptions_of_offence hfound)
    exact hfound

end Config

/-! ## The settings of a session -/

/-- Whether changes of tokens may be asked for, as an answer to the editor says it. -/
def Answer.fullDelta? (answer : Answer) : Option Json := do
  let capabilities ← answer.toJson.field? "capabilities"
  let tokens ← capabilities.field? "semanticTokensProvider"
  let full ← tokens.field? "full"
  full.field? "delta"

theorem Answer.fullDelta?_welcome (config : Config) :
    (Answer.welcome (.ofConfig config)).fullDelta? = some (.bool config.semanticTokensDelta) :=
  rfl

namespace Session

theorem start_of_accepted {options : Option Json} {config : Config} (s : Session)
    (h : Config.Accepted options config) :
    s.start options = { session := { s with config }, answer := .welcome (.ofConfig config) } := by
  rw [start, Config.ofOptions_of_accepted h]

theorem start_of_offence {options : Option Json} {cause : ConfigError} (s : Session)
    (h : Config.Offence options cause) :
    s.start options =
      { session := { s with config := ⟨true, true⟩ }, answer := .welcome (.ofConfig ⟨true, true⟩)
        events := [.configFallback (.invalidConfig cause)] } := by
  rw [start, Config.ofOptions_of_offence h]

theorem fullDelta?_start (s : Session) (options : Option Json) :
    (s.start options).answer.fullDelta? =
      some (.bool (s.start options).session.config.semanticTokensDelta) := by
  rcases Config.accepted_or_offence options with ⟨config, h⟩ | ⟨cause, h⟩
  · rw [start_of_accepted s h, Answer.fullDelta?_welcome]
  · rw [start_of_offence s h, Answer.fullDelta?_welcome]

/-- Settings are taken over exactly where they fit, and as a whole: in any session they replace what
was set before, by what was sent where that fits and by the defaults where it does not, and the
editor is told what then holds. -/
theorem start_installs (options : Option Json) :
    (∀ config, Config.ofOptions options = .ok config ↔ Config.Accepted options config) ∧
    (∀ cause, Config.ofOptions options = .error cause ↔ Config.Offence options cause) ∧
    ∀ s : Session, ∃ outcome, s.handle (.start options) = .ok outcome ∧
      outcome.answer.fullDelta? = some (.bool outcome.session.config.semanticTokensDelta) ∧
      (∀ config, Config.Accepted options config →
        outcome.session = { s with config } ∧ outcome.events = []) ∧
      ∀ cause, Config.Offence options cause →
        outcome.session = { s with config := ⟨true, true⟩ } ∧
          outcome.events = [.configFallback (.invalidConfig cause)] := by
  refine ⟨fun config => Config.ofOptions_eq_ok_iff, fun cause => Config.ofOptions_eq_error_iff,
    fun s => ⟨s.start options, rfl, s.fullDelta?_start options, ?_, ?_⟩⟩
  · intro config h
    rw [start_of_accepted s h]
    exact ⟨rfl, rfl⟩
  · intro cause h
    rw [start_of_offence s h]
    exact ⟨rfl, rfl⟩

/-- One item that fits does not save the rest. -/
example : (({} : Session).start (some (.array [.bool false, .null]))).session.config =
    ⟨true, true⟩ := by
  decide

end Session

/-! ## The settings of a run -/

/-- Settings stay in force until others are sent, and whatever was set before them is forgotten. -/
theorem Transcript.config_run_of_start {past later : List Request} {options : Option Json}
    {t : Transcript} (h : run (past ++ .start options :: later) = .ok t)
    (hlater : ∀ request ∈ later, ∀ options, request ≠ .start options) (s : Session) :
    t.session.config = (s.start options).session.config := by
  have hinstalled : t.session.config = .orDefault (Config.ofOptions options) := by
    rw [config_run h, installedConfig, List.foldl_append, List.foldl_cons,
      foldl_configAfter hlater, Request.configAfter]
  rw [hinstalled]
  rcases Config.accepted_or_offence options with ⟨config, hfits⟩ | ⟨cause, hfault⟩
  · rw [Session.start_of_accepted s hfits, Config.ofOptions_of_accepted hfits, Config.orDefault]
  · rw [Session.start_of_offence s hfault, Config.ofOptions_of_offence hfault, Config.orDefault]

end AsmLens
