import ShaderPipeline.Proofs.Schema.TypesReading

/-! Types sections declare structs with distinct names, and the members of each are of built-in
types or of structs declared before it. -/

namespace ShaderPipeline.Schema

/-- The type is built in, or it is one of the structs. -/
def PropertyType.KnownIn (structs : List Struct) : PropertyType → Prop
  | .value type => type ∈ ValueType.all
  | .struct name => ∃ struct ∈ structs, struct.name = name

def Known (structs : List Struct) (properties : List Property) : Prop :=
  ∀ property ∈ properties, property.type.KnownIn structs

/-- Structs, the latest first, each of which names only those after it in the list. -/
inductive Declared : List Struct → Prop
  | nil : Declared []
  | cons {struct : Struct} {earlier : List Struct}
      (fresh : ∀ other ∈ earlier, other.name ≠ struct.name)
      (known : Known earlier struct.properties) (before : Declared earlier) :
      Declared (struct :: earlier)

def Types.WellFormed (types : Types) : Prop := Declared types.structs.reverse

theorem Declared.of_append {later earlier : List Struct} (declared : Declared (later ++ earlier)) :
    Declared earlier ∧ ∀ first ∈ later, ∀ second ∈ earlier, first.name ≠ second.name := by
  induction later with
  | nil => exact ⟨declared, fun _ absent => (nomatch absent)⟩
  | cons struct rest ih =>
    cases declared with
    | cons fresh known before =>
      obtain ⟨valid, apart⟩ := ih before
      refine ⟨valid, fun first member second old => ?_⟩
      rcases List.mem_cons.mp member with rfl | member
      · exact (fresh second (List.mem_append_right rest old)).symm
      · exact apart first member second old

/-- Declared structs are told apart by their names. -/
theorem Declared.eq_of_name {structs : List Struct} (declared : Declared structs)
    {first second : Struct} (here : first ∈ structs) (there : second ∈ structs)
    (same : first.name = second.name) : first = second := by
  induction declared with
  | nil => cases here
  | cons fresh known before ih =>
    rcases List.mem_cons.mp here with rfl | old
    · rcases List.mem_cons.mp there with rfl | other
      · rfl
      · exact absurd same.symm (fresh second other)
    · rcases List.mem_cons.mp there with rfl | other
      · exact absurd same (fresh first old)
      · exact ih old other

theorem Types.WellFormed.find? {types : Types} (valid : types.WellFormed) {struct : Struct}
    (member : struct ∈ types.structs) : types.find? struct.name = some struct := by
  cases found : types.find? struct.name with
  | none => simpa using List.find?_eq_none.mp found struct member
  | some other =>
    have same : other.name = struct.name := by simpa using List.find?_some found
    exact congrArg some (valid.eq_of_name
      (List.mem_reverse.mpr (List.mem_of_find?_eq_some found))
      (List.mem_reverse.mpr member) same)

theorem PropertyType.KnownIn.mono {type : PropertyType} {structs more : List Struct}
    (known : type.KnownIn structs) (kept : ∀ struct ∈ structs, struct ∈ more) :
    type.KnownIn more := by
  cases type with
  | value type => exact known
  | struct name =>
    obtain ⟨struct, member, same⟩ := known
    exact ⟨struct, kept struct member, same⟩

/-- The members of each struct are of built-in types or of the structs. -/
theorem Types.WellFormed.known {types : Types} (valid : types.WellFormed) {struct : Struct}
    (member : struct ∈ types.structs) : Known types.structs struct.properties := by
  obtain ⟨later, earlier, split⟩ := List.append_of_mem (List.mem_reverse.mpr member)
  have whole := valid
  rw [WellFormed, split] at whole
  cases whole.of_append.1 with
  | cons fresh known before =>
    refine fun property here => (known property here).mono fun other old => ?_
    rw [← List.mem_reverse, split]
    exact List.mem_append_right later (List.mem_cons_of_mem struct old)

/-- What holds of a struct if it holds of the structs of its members holds of all structs. -/
theorem Types.WellFormed.induction {types : Types} (valid : types.WellFormed)
    {Holds : Struct → Prop}
    (step : ∀ struct ∈ types.structs, (∀ inner ∈ types.structs, ∀ property ∈ struct.properties,
      property.type = .struct inner.name → Holds inner) → Holds struct) :
    ∀ struct ∈ types.structs, Holds struct := by
  -- The list grows from the first declaration on, so that members come before their struct.
  have earlierHold {later earlier : List Struct} (split : types.structs.reverse = later ++ earlier) :
      ∀ struct ∈ earlier, Holds struct := by
    induction earlier generalizing later with
    | nil => exact fun _ absent => (nomatch absent)
    | cons latest rest ih =>
      have inner := @ih (later ++ [latest]) (by simpa using split)
      have kept : ∀ struct ∈ latest :: rest, struct ∈ types.structs := fun struct member => by
        rw [← List.mem_reverse, split]
        exact List.mem_append_right later member
      have whole := valid
      rw [WellFormed, split] at whole
      intro struct member
      rcases List.mem_cons.mp member with rfl | old
      · refine step struct (kept struct List.mem_cons_self) fun target present property here type => ?_
        cases whole.of_append.1 with
        | cons fresh known before =>
          have reached := known property here
          rw [type] at reached
          obtain ⟨other, found, same⟩ := reached
          obtain rfl := valid.eq_of_name
            (List.mem_reverse.mpr (kept other (List.mem_cons_of_mem _ found)))
            (List.mem_reverse.mpr present) same
          exact inner other found
      · exact inner struct old
  exact fun struct member =>
    earlierHold (List.nil_append _).symm struct (List.mem_reverse.mpr member)

theorem Types.knownIn_of_resolve? {types : Types} {name : String} {type : PropertyType}
    {size : Nat} (found : types.resolve? name = some (type, size)) :
    type.KnownIn types.structs := by
  rw [resolve?] at found
  split at found
  next value named =>
    cases found
    exact List.mem_of_find?_eq_some named
  next =>
    obtain ⟨struct, declared, same⟩ := Option.map_eq_some_iff.mp found
    cases same
    exact ⟨struct, List.mem_of_find?_eq_some declared, rfl⟩

/-- A struct that is kept has a name of its own. -/
theorem Types.WellFormed.add? {types more : Types} {struct : Struct} (valid : types.WellFormed)
    (known : Known types.structs struct.properties) (added : types.add? struct = some more) :
    more.WellFormed := by
  rw [Types.add?] at added
  split at added
  next => cases added
  next fresh =>
    cases added
    rw [WellFormed, List.reverse_append]
    refine .cons ?_ ?_ valid
    · intro other member same
      refine fresh (List.find?_isSome.mpr ⟨other, List.mem_reverse.mp member, ?_⟩)
      simp [same]
    · exact fun property member => (known property member).mono fun struct => List.mem_reverse.mpr

namespace TypesReader

theorem known_addProperty {types : Types} {struct more : Struct} {statement : Text}
    (known : Known types.structs struct.properties)
    (added : addProperty types struct statement = .ok more) :
    Known types.structs more.properties := by
  obtain ⟨_, _, _, _, _, _, _, _, _, resolved, _, pushed⟩ := of_addProperty_ok added
  rw [Struct.push?] at pushed
  split at pushed
  next =>
    cases pushed
    intro property member
    rw [List.mem_append, List.mem_singleton] at member
    rcases member with old | rfl
    · exact known property old
    · exact Types.knownIn_of_resolve? resolved
  next => cases pushed

private theorem keeps_known : Keeps Types.WellFormed fun types current =>
    Known types.structs current.struct.properties where
  opened _ _ _ := fun _ absent => (nomatch absent)
  added := known_addProperty
  closed valid known _ _ added := valid.add? known added

end TypesReader

/-- Whatever a types section says, the structs read of it are declared one after another. -/
theorem Types.wellFormed_ofSection (text : Text) : (Types.ofSection text).value.WellFormed :=
  TypesReader.keeps_known.ofSection .nil text

end ShaderPipeline.Schema
