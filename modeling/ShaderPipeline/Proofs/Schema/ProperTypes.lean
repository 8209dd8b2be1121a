import ShaderPipeline.Proofs.Memory.Resolved
import ShaderPipeline.Proofs.Schema.Sizes
import ShaderPipeline.Proofs.Text.Declarators

/-! What every types section declares: structs of distinct names, none of them built in, each with
members of distinct names whose types stand before it. -/

namespace ShaderPipeline.Schema

/-- A member whose type is built in or one of the structs. -/
structure Property.ProperIn (structs : List Struct) (property : Property) : Prop where
  identifier : Text.isIdentifier property.name.toList = true
  positive : 1 ≤ property.length
  known : property.type.KnownIn structs

/-- Members of distinct names, of built-in types or of the structs. -/
structure ProperMembers (structs : List Struct) (properties : List Property) : Prop where
  names : (properties.map Property.name).Nodup
  each : ∀ property ∈ properties, property.ProperIn structs

/-- A struct that can be declared behind the structs before it. -/
structure Struct.ProperAfter (earlier : List Struct) (struct : Struct) : Prop where
  identifier : Text.isIdentifier struct.name.toList = true
  notBuiltIn : ValueType.ofName? struct.name = none
  filled : struct.properties ≠ []
  members : ProperMembers earlier struct.properties
  size : struct.size = Types.tightTotal ⟨earlier⟩ struct.properties
  bounded : struct.size ≤ wordMax

/-- Structs of distinct names, each proper behind those before it. -/
structure Types.Proper (types : Types) : Prop where
  names : (types.structs.map Struct.name).Nodup
  declared : ∀ before struct after, types.structs = before ++ struct :: after →
    struct.ProperAfter before

theorem Types.Proper.empty : Types.empty.Proper where
  names := .nil
  declared _ _ _ split := by simp [Types.empty] at split

/-- One more name that differs from all names before it. -/
theorem nodup_map_append_singleton {name : α → String} {items : List α} {last : α}
    (names : (items.map name).Nodup) (fresh : ∀ item ∈ items, name item ≠ name last) :
    ((items ++ [last]).map name).Nodup := by
  rw [List.map_append, List.nodup_append]
  refine ⟨names, by simp, ?_⟩
  intro old member new single
  obtain ⟨item, present, rfl⟩ := List.mem_map.mp member
  obtain rfl := List.mem_singleton.mp single
  exact fresh item present

theorem ProperMembers.nil (structs : List Struct) : ProperMembers structs [] where
  names := .nil
  each _ absent := nomatch absent

theorem ProperMembers.add {structs : List Struct} {properties : List Property}
    {property : Property} (members : ProperMembers structs properties)
    (fresh : (properties.find? (·.name == property.name)).isSome = false)
    (proper : property.ProperIn structs) : ProperMembers structs (properties ++ [property]) := by
  constructor
  · refine nodup_map_append_singleton members.names fun other member same => ?_
    rw [Option.isSome_eq_false_iff, Option.isNone_iff_eq_none, List.find?_eq_none] at fresh
    exact fresh other member (by simp [same])
  · intro other member
    rcases List.mem_append.mp member with old | new
    · exact members.each other old
    · obtain rfl := List.mem_singleton.mp new
      exact proper

/-- The member that a type and a declarator stand for. -/
theorem Property.ProperIn.of_read {types : Types} {declarator name : Text} {type : String}
    {length size : Nat} {propertyType : PropertyType}
    (suffix : Text.splitArraySuffix? declarator = some (name, length))
    (identifier : Text.isIdentifier name = true)
    (resolved : types.resolve? type = some (propertyType, size)) :
    Property.ProperIn types.structs ⟨name.string, propertyType, length⟩ where
  identifier := by rw [Text.string, String.toList_ofList, identifier]
  positive := Text.one_le_of_splitArraySuffix? suffix
  known := Types.knownIn_of_resolve? resolved

theorem Types.fresh_of_add? {types more : Types} {struct : Struct}
    (added : types.add? struct = some more) :
    ∀ other ∈ types.structs, other.name ≠ struct.name := by
  rw [Types.add?] at added
  split at added
  next => cases added
  next absent =>
    intro other member same
    exact absent (List.find?_isSome.mpr ⟨other, member, by simp [same]⟩)

theorem Types.Proper.add? {types more : Types} {struct : Struct} (proper : types.Proper)
    (fits : struct.ProperAfter types.structs) (added : types.add? struct = some more) :
    more.Proper := by
  constructor
  · rw [structs_of_add? added]
    exact nodup_map_append_singleton proper.names (fresh_of_add? added)
  · intro before last after split
    -- The longer list is split at the new struct, or where the shorter one can be split.
    rw [structs_of_add? added] at split
    rcases List.eq_nil_or_concat after with rfl | ⟨others, final, rfl⟩
    · obtain ⟨rfl, same⟩ := List.append_inj' split rfl
      obtain rfl := List.head_eq_of_cons_eq same
      exact fits
    · rw [List.concat_eq_append, ← List.cons_append, ← List.append_assoc] at split
      exact proper.declared before last others (List.append_inj' split rfl).1

/-! ### What proper structs come to -/

theorem ofName?_builtIn : ∀ type ∈ ValueType.all, ValueType.ofName? type.name = some type := by
  decide

private theorem size_builtIn_pos : ∀ type ∈ ValueType.all, 0 < type.size := by
  decide

private theorem isIdentifier_builtIn :
    ∀ type ∈ ValueType.all, Text.isIdentifier type.name.toList = true := by
  decide

theorem PropertyType.isIdentifier_name {structs : List Struct} {type : PropertyType}
    (named : ∀ struct ∈ structs, Text.isIdentifier struct.name.toList = true)
    (known : type.KnownIn structs) : Text.isIdentifier type.name.toList = true := by
  cases type with
  | value builtIn => exact isIdentifier_builtIn builtIn known
  | struct name =>
    obtain ⟨struct, member, rfl⟩ := known
    exact named struct member

theorem Types.Proper.of_mem {types : Types} (proper : types.Proper) {struct : Struct}
    (member : struct ∈ types.structs) :
    ∃ before after, types.structs = before ++ struct :: after ∧ struct.ProperAfter before := by
  obtain ⟨before, after, split⟩ := List.append_of_mem member
  exact ⟨before, after, split, proper.declared before struct after split⟩

theorem Types.Proper.isIdentifier {types : Types} (proper : types.Proper) :
    ∀ struct ∈ types.structs, Text.isIdentifier struct.name.toList = true := by
  intro struct member
  obtain ⟨_, _, _, declared⟩ := proper.of_mem member
  exact declared.identifier

namespace Types

variable {types : Types} {type : PropertyType}

private theorem exists_find?_of_known {name : String}
    (known : (PropertyType.struct name).KnownIn types.structs) :
    ∃ struct ∈ types.structs, types.find? name = some struct ∧ struct.name = name := by
  obtain ⟨struct, member, named⟩ := known
  have some : (types.find? name).isSome = true :=
    List.find?_isSome.mpr ⟨struct, member, by simp [named]⟩
  obtain ⟨found, same⟩ := Option.isSome_iff_exists.mp some
  exact ⟨found, List.mem_of_find?_eq_some same, same, by simpa using List.find?_some same⟩

/-- A type that is known is found again by its name. -/
theorem resolve?_name (unnamed : ∀ struct ∈ types.structs, ValueType.ofName? struct.name = none)
    (known : type.KnownIn types.structs) :
    types.resolve? type.name = some (type, types.tightSize type) := by
  cases type with
  | value builtIn => rw [resolve?, PropertyType.name, ofName?_builtIn builtIn known, tightSize]
  | struct name =>
    obtain ⟨struct, member, found, rfl⟩ := exists_find?_of_known known
    rw [resolve?, PropertyType.name, unnamed struct member, tightSize, found]
    rfl

theorem tightSize_pos (filled : ∀ struct ∈ types.structs, 0 < struct.size)
    (known : type.KnownIn types.structs) : 0 < types.tightSize type := by
  cases type with
  | value builtIn => exact size_builtIn_pos builtIn known
  | struct name =>
    obtain ⟨struct, member, found, _⟩ := exists_find?_of_known known
    rw [tightSize, found]
    exact filled struct member

theorem tightTotal_append (first second : List Property) :
    types.tightTotal (first ++ second) = types.tightTotal first + types.tightTotal second := by
  induction first with
  | nil => rw [List.nil_append, tightTotal, Nat.zero_add]
  | cons property rest ih => rw [List.cons_append, tightTotal, tightTotal, ih, Nat.add_assoc]

/-- A struct has members, and these take bytes, so it takes some itself. -/
theorem Proper.size_pos (proper : types.Proper) {before after : List Struct} {struct : Struct}
    (split : types.structs = before ++ struct :: after) : 0 < struct.size := by
  have declared := proper.declared before struct after split
  -- The structs before this one stand behind fewer structs, which the recursion is on.
  have earlier : ∀ inner ∈ before, 0 < inner.size := by
    intro inner member
    obtain ⟨start, rest, same⟩ := List.append_of_mem member
    have stands : types.structs = start ++ inner :: (rest ++ struct :: after) := by
      rw [split, same, List.append_assoc, List.cons_append]
    exact proper.size_pos stands
  obtain ⟨property, rest, same⟩ := List.exists_cons_of_ne_nil declared.filled
  obtain ⟨_, positive, known⟩ := declared.members.each property (by simp [same])
  have element : 0 < tightSize ⟨before⟩ property.type := tightSize_pos earlier known
  have bytes : 0 < tightSize ⟨before⟩ property.type * property.length :=
    Nat.mul_pos element positive
  rw [declared.size, same, tightTotal]
  exact Nat.add_pos_left bytes _
termination_by before.length
decreasing_by
  rw [same, List.length_append, List.length_cons]
  omega

end Types

theorem Types.Proper.unnamed {types : Types} (proper : types.Proper) :
    ∀ struct ∈ types.structs, ValueType.ofName? struct.name = none := by
  intro struct member
  obtain ⟨_, _, _, declared⟩ := proper.of_mem member
  exact declared.notBuiltIn

theorem Types.Proper.sized {types : Types} (proper : types.Proper) :
    ∀ struct ∈ types.structs, 0 < struct.size := by
  intro struct member
  obtain ⟨_, _, split, _⟩ := proper.of_mem member
  exact proper.size_pos split

/-- The structs up to any of them are proper on their own. -/
theorem Types.Proper.earlier {types : Types} (proper : types.Proper) {before after : List Struct}
    (split : types.structs = before ++ after) : (⟨before⟩ : Types).Proper where
  names := by
    have names := proper.names
    rw [split, List.map_append, List.nodup_append] at names
    exact names.1
  declared start struct rest inner := by
    refine proper.declared start struct (rest ++ after) ?_
    rw [split, show before = start ++ struct :: rest from inner, List.append_assoc,
      List.cons_append]

/-! ### Reading -/

/-- A struct that is open, as far as its members go. Its name is proper if it is to be kept. -/
structure OpenStruct.Proper (types : Types) (current : OpenStruct) : Prop where
  named : current.valid = true → Text.isIdentifier current.struct.name.toList = true ∧
    ValueType.ofName? current.struct.name = none
  members : ProperMembers types.structs current.struct.properties
  sized : current.struct.SizedIn types

namespace TypesReader

variable {types : Types}

private theorem of_nameProblem?_none {name : Text} (fine : nameProblem? types name = none) :
    Text.isIdentifier name = true ∧ ValueType.ofName? name.string = none := by
  rw [nameProblem?] at fine
  split at fine
  next => cases fine
  next identifier =>
    split at fine
    next => cases fine
    next unnamed => exact ⟨by simpa using identifier, by simpa using unnamed⟩

private theorem proper_opened (types : Types) (name : Text) (line : Nat) :
    OpenStruct.Proper types
      ⟨.empty name.string, line, (nameProblem? types name).isNone⟩ where
  named valid := by
    rw [Option.isNone_iff_eq_none] at valid
    obtain ⟨identifier, unnamed⟩ := of_nameProblem?_none valid
    exact ⟨by rw [Struct.empty, Text.string, String.toList_ofList, identifier], unnamed⟩
  members := .nil types.structs
  sized := .empty types name.string

private theorem proper_added {current : OpenStruct} {statement : Text} {struct : Struct}
    (proper : current.Proper types)
    (added : addProperty types current.struct statement = .ok struct) :
    OpenStruct.Proper types { current with struct } := by
  have sized := proper.sized.addProperty added
  obtain ⟨type, declarator, name, length, propertyType, size, _, suffix, identifier, resolved,
    absent, pushed⟩ := of_addProperty_ok added
  rw [Struct.push?] at pushed
  split at pushed
  next =>
    cases pushed
    have member := Property.ProperIn.of_read suffix identifier resolved
    exact ⟨proper.named, proper.members.add absent member, sized⟩
  next => cases pushed

theorem keeps_proper : Keeps Types.Proper OpenStruct.Proper where
  opened := proper_opened
  added := proper_added
  closed proper held valid filled added := by
    obtain ⟨identifier, unnamed⟩ := held.named valid
    exact proper.add? ⟨identifier, unnamed, filled, held.members, held.sized.size,
      held.sized.bounded⟩ added

end TypesReader

theorem Types.proper_ofSection (text : Text) : (Types.ofSection text).value.Proper :=
  TypesReader.keeps_proper.ofSection .empty text

/-- Whatever a types section says, the structs read of it are proper one after another, and under
every rule their layouts meet no unknown struct. -/
theorem Types.proper_and_resolved_ofSection (text : Text) :
    let types := (Types.ofSection text).value
    types.Proper ∧ ∀ rule, ∀ struct ∈ types.structs, ∃ layout,
      Memory.placeStruct types rule struct.name = some layout ∧ Memory.Resolved layout :=
  ⟨Types.proper_ofSection text, fun rule _ member =>
    Memory.resolved_placeStruct rule (Types.wellFormed_ofSection text) member⟩

end ShaderPipeline.Schema
