import AsmLens.Json.Shape
import Mathlib.Data.List.Forall2

/-!
What it means for a JSON value to have a shape. `Shape.Spells` says of a value and its standard
spelling what each looks like, and not how the one is found from the other; the reader of shapes
finds it wherever there is one (`Shape.read_eq_some_iff`).
-/

namespace AsmLens

/-- What is found of a field is as it should be, and this is what is kept of it. -/
def Presence.Spells (presence : Presence) (found : Option Json) (has : Json → Json → Prop) :
    Option Json → Prop
  | some standard => ∃ value, found = some value ∧ (presence = .optional → value ≠ .null) ∧
      has value standard
  | none => found = none ∧ presence ≠ .required ∨ found = some .null ∧ presence = .optional

/-- A value tells one of some names, by the name or by its number. -/
def Json.Tells (names : List String) (told : Json) (name : String) : Prop :=
  told = .string name ∨
    ∃ index : Int, told = .integer index ∧ 0 ≤ index ∧ names[index.toNat]? = some name

namespace Shape

variable (uris : UriReader)

mutual

/-- The value has the shape, and its standard spelling is `standard`. -/
def Spells : Shape → Json → Json → Prop
  | any, value, standard => standard = value
  | null, value, standard => value = .null ∧ standard = .null
  | flag, value, standard => ∃ told, value = .bool told ∧ standard = .bool told
  | text, value, standard => ∃ told, value = .string told ∧ standard = .string told
  | uri, value, standard => ∃ spelled normal, value = .string spelled ∧
      uris.normal? spelled = some normal ∧ standard = .string normal
  | number, value, standard => (∃ told, value = .integer told ∧ standard = .integer told) ∨
      ∃ told, value = .real told ∧ standard = .real told
  | integer least greatest, value, standard => ∃ told, value = .integer told ∧
      least ≤ told ∧ told ≤ greatest ∧ standard = .integer told
  | choice names, value, standard => ∃ name ∈ names,
      (value = .string name ∨ value = .object [(name, .null)]) ∧ standard = .string name
  | list item, value, standard => ∃ values kept, value = .array values ∧
      List.Forall₂ (Spells item) values kept ∧ standard = .array kept
  | pair first second, value, standard => ∃ a b c d, value = .array [a, b] ∧
      Spells first a c ∧ Spells second b d ∧ standard = .array [c, d]
  | record fields, value, standard => ∃ kept,
      ((∃ given, value = .object given ∧ SpellsFields fields given kept) ∨
        ∃ items, value = .array items ∧ SpellsItems fields items kept) ∧
      standard = .object kept
  | object fields, value, standard => ∃ given kept, value = .object given ∧
      SpellsFields fields given kept ∧ standard = .object kept
  | openObject fields others, value, standard => ∃ given known more, value = .object given ∧
      SpellsFields fields given known ∧
      List.Forall₂ (fun entry kept => entry.1 = kept.1 ∧ Spells others entry.2 kept.2)
        (given.filter fun (name, _) => !fields.any fun (known, _) => known = name) more ∧
      standard = .object (known ++ more)
  | byUri shape, value, standard => ∃ given kept, value = .object given ∧
      List.Forall₂ (fun entry kept => uris.normal? entry.1 = some kept.1 ∧
        Spells shape entry.2 kept.2) given kept ∧
      standard = .object kept
  | tagged tag cases, value, standard => ∃ told others name,
      ((∃ given, value = .object given ∧ given.lookup tag = some told ∧
          others = .object (given.filter fun (field, _) => field ≠ tag)) ∨
        ∃ items, value = .array (told :: items) ∧ others = .array items) ∧
      told.Tells (cases.map (·.1)) name ∧ SpellsCase cases name others standard
  | either first second, value, standard => Spells first value standard ∨
      (∀ other, ¬ Spells first value other) ∧ Spells second value standard

/-- The fields of an object are those of a record, of which these are kept. -/
def SpellsFields : List (String × Presence × Shape) → List (String × Json) →
    List (String × Json) → Prop
  | [], _, kept => kept = []
  | (name, presence, shape) :: more, given, kept => ∃ value others,
      presence.Spells (given.lookup name) (Spells shape) value ∧ SpellsFields more given others ∧
      kept = withField name value others

/-- The values of a list are those of the fields of a record, of which these are kept. -/
def SpellsItems : List (String × Presence × Shape) → List Json → List (String × Json) → Prop
  | [], items, kept => items = [] ∧ kept = []
  | (_, presence, _) :: more, [], kept => presence = .defaulted ∧ SpellsItems more [] kept
  | (name, presence, shape) :: more, item :: items, kept => ∃ value others,
      presence.Spells (some item) (Spells shape) value ∧ SpellsItems more items others ∧
      kept = withField name value others

/-- The value has the shape of the first case of that name. -/
def SpellsCase : List (String × Shape) → String → Json → Json → Prop
  | [], _, _, _ => False
  | (name, shape) :: more, told, value, standard => name = told ∧ Spells shape value standard ∨
      name ≠ told ∧ SpellsCase more told value standard

end

end Shape

/-! ## Reading finds the standard spelling -/

theorem Presence.read_eq_some_iff {shape : Json → Option Json} {has : Json → Json → Prop}
    (h : ∀ value standard, shape value = some standard ↔ has value standard)
    (presence : Presence) (found kept : Option Json) :
    presence.read found shape = some kept ↔ presence.Spells found has kept := by
  cases presence <;> cases found with
  | none => cases kept <;> simp [Presence.read, Presence.Spells]
  | some value => cases value <;> cases kept <;> simp [Presence.read, Presence.Spells, h]

theorem Shape.caseName?_eq_some_iff {names : List String} {told : Json} {name : String} :
    caseName? names told = some name ↔ told.Tells names name := by
  cases told <;> simp [caseName?, Json.Tells]

theorem Shape.chosen?_eq_some_iff {names : List String} {value : Json} {name : String} :
    chosen? names value = some name ↔
      name ∈ names ∧ (value = .string name ∨ value = .object [(name, .null)]) := by
  unfold chosen?
  split
  · next given =>
    simp only [List.contains_eq_mem, decide_eq_true_eq, Option.ite_none_right_eq_some]
    grind
  · next given =>
    simp only [List.contains_eq_mem, decide_eq_true_eq, Option.ite_none_right_eq_some]
    grind
  · next hstring hobject =>
    refine iff_of_false (by simp) ?_
    rintro ⟨-, rfl | rfl⟩
    · exact hstring name rfl
    · exact hobject name rfl

/-- Reading the items of a list one by one. -/
theorem mapM_eq_some_iff_forall₂ {α β : Type} {f : α → Option β} {R : α → β → Prop}
    (h : ∀ a b, f a = some b ↔ R a b) (items : List α) (found : List β) :
    items.mapM f = some found ↔ List.Forall₂ R items found := by
  induction items generalizing found with
  | nil => cases found <;> simp
  | cons item items ih =>
      simp only [List.mapM_cons, Option.bind_eq_bind, Option.bind_eq_some_iff, h, ih,
        List.forall₂_cons_left_iff, Option.pure_def, Option.some.injEq]
      grind

namespace Shape

variable (uris : UriReader)

mutual

theorem read_eq_some_iff : ∀ (shape : Shape) (value standard : Json),
    read uris shape value = some standard ↔ Spells uris shape value standard
  | any, value, standard => by simp [read, Spells, eq_comm]
  | null, value, standard => by cases value <;> simp [read, Spells, eq_comm]
  | flag, value, standard => by cases value <;> simp [read, Spells, eq_comm]
  | text, value, standard => by cases value <;> simp [read, Spells, eq_comm]
  | uri, value, standard => by cases value <;> simp [read, Spells, eq_comm (a := standard)]
  | number, value, standard => by cases value <;> simp [read, Spells, eq_comm]
  | integer least greatest, value, standard => by
      cases value <;> simp [read, Spells, Json.integerIn?, eq_comm (a := standard), and_assoc]
  | choice names, value, standard => by
      simp [read, Spells, chosen?_eq_some_iff, and_assoc, eq_comm (a := standard)]
  | list item, value, standard => by
      have hitem := mapM_eq_some_iff_forall₂ (read_eq_some_iff item)
      cases value <;> simp [read, Spells, hitem, eq_comm (a := standard)]
  | pair first second, value, standard => by
      have hfirst := read_eq_some_iff first
      have hsecond := read_eq_some_iff second
      rcases value with _ | _ | _ | _ | _ | ⟨_ | ⟨a, _ | ⟨b, _ | ⟨c, more⟩⟩⟩⟩ | _ <;>
        simp [read, Spells, hfirst, hsecond, Option.bind_eq_some_iff, eq_comm (a := standard)]
  | record fields, value, standard => by
      have hfields := readFields_eq_some_iff fields
      have hitems := readItems_eq_some_iff fields
      cases value <;> simp [read, Spells, hfields, hitems, eq_comm (a := standard)]
  | object fields, value, standard => by
      have hfields := readFields_eq_some_iff fields
      cases value <;> simp [read, Spells, hfields, eq_comm (a := standard)]
  | openObject fields others, value, standard => by
      have hfields := readFields_eq_some_iff fields
      have hothers := read_eq_some_iff others
      have hmore := mapM_eq_some_iff_forall₂
        (f := fun (entry : String × Json) => (read uris others entry.2).map (entry.1, ·))
        (R := fun entry kept => entry.1 = kept.1 ∧ Spells uris others entry.2 kept.2) (by
          rintro ⟨name, value⟩ ⟨other, standard⟩
          simp [hothers, and_comm])
      cases value <;> simp [read, Spells, hfields, hmore, Option.bind_eq_some_iff,
        eq_comm (a := standard)]
  | byUri shape, value, standard => by
      have hshape := read_eq_some_iff shape
      have hentries := mapM_eq_some_iff_forall₂
        (f := fun (entry : String × Json) =>
          (uris.normal? entry.1).bind fun normal => (read uris shape entry.2).map (normal, ·))
        (R := fun entry kept => uris.normal? entry.1 = some kept.1 ∧
          Spells uris shape entry.2 kept.2) (by
          rintro ⟨name, value⟩ ⟨other, standard⟩
          simp [Option.bind_eq_some_iff, hshape])
      cases value <;> simp [read, Spells, hentries, eq_comm (a := standard)]
  | tagged tag cases, value, standard => by
      have hcases := readCase_eq_some_iff cases
      rcases value with _ | _ | _ | _ | _ | ⟨_ | ⟨told, given⟩⟩ | given <;>
        simp [read, Spells, hcases, Option.bind_eq_some_iff, caseName?_eq_some_iff]
  | either first second, value, standard => by
      have hfirst := read_eq_some_iff first
      have hsecond := read_eq_some_iff second
      simp [read, Spells, Option.or_eq_some_iff, ← hfirst, ← hsecond,
        Option.eq_none_iff_forall_ne_some]

theorem readFields_eq_some_iff : ∀ (fields : List (String × Presence × Shape))
    (given kept : List (String × Json)),
    readFields uris fields given = some kept ↔ SpellsFields uris fields given kept
  | [], given, kept => by simp [readFields, SpellsFields, eq_comm]
  | (name, presence, shape) :: more, given, kept => by
      have hvalue := Presence.read_eq_some_iff (read_eq_some_iff shape) presence (given.lookup name)
      have hmore := readFields_eq_some_iff more given
      simp [readFields, SpellsFields, hvalue, hmore, Option.bind_eq_some_iff, eq_comm (a := kept)]

theorem readItems_eq_some_iff : ∀ (fields : List (String × Presence × Shape))
    (items : List Json) (kept : List (String × Json)),
    readItems uris fields items = some kept ↔ SpellsItems uris fields items kept
  | [], items, kept => by cases items <;> simp [readItems, SpellsItems, eq_comm]
  | (name, presence, shape) :: more, [], kept => by
      have hmore := readItems_eq_some_iff more []
      cases presence <;> simp [readItems, SpellsItems, hmore]
  | (name, presence, shape) :: more, item :: items, kept => by
      have hvalue := Presence.read_eq_some_iff (read_eq_some_iff shape) presence (some item)
      have hmore := readItems_eq_some_iff more items
      simp [readItems, SpellsItems, hvalue, hmore, Option.bind_eq_some_iff, eq_comm (a := kept)]

theorem readCase_eq_some_iff : ∀ (cases : List (String × Shape)) (name : String)
    (value standard : Json),
    readCase uris cases name value = some standard ↔ SpellsCase uris cases name value standard
  | [], name, value, standard => by simp [readCase, SpellsCase]
  | (told, shape) :: more, name, value, standard => by
      have hshape := read_eq_some_iff shape value standard
      have hmore := readCase_eq_some_iff more name value standard
      by_cases h : told = name <;> simp [readCase, SpellsCase, h, hshape, hmore]

end

end Shape

end AsmLens
