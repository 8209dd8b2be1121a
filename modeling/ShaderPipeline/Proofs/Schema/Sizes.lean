import ShaderPipeline.Proofs.Schema.Declared

/-! The sizes that structs are declared with: each is the sum over the members, at the size of a
built-in type or at the one that an earlier struct was declared with, and it stays in 32 bits. -/

namespace ShaderPipeline.Schema

namespace Types

/-- Bytes of an element of a type without padding. -/
def tightSize (types : Types) : PropertyType → Nat
  | .value type => type.size
  | .struct name => ((types.find? name).map Struct.size).getD 0

/-- Bytes of members without padding. -/
def tightTotal (types : Types) : List Property → Nat
  | [] => 0
  | property :: rest => types.tightSize property.type * property.length + types.tightTotal rest

variable {types more : Types}

theorem tightSize_declared (valid : types.WellFormed) {struct : Struct}
    (member : struct ∈ types.structs) : types.tightSize (.struct struct.name) = struct.size := by
  rw [tightSize, valid.find? member]
  rfl

private theorem tightSize_of_resolve? {name : String} {type : PropertyType} {size : Nat}
    (found : types.resolve? name = some (type, size)) : types.tightSize type = size := by
  rw [resolve?] at found
  split at found
  next =>
    cases found
    rfl
  next =>
    obtain ⟨struct, declared, same⟩ := Option.map_eq_some_iff.mp found
    cases same
    have named : struct.name = name := by simpa using List.find?_some declared
    rw [tightSize, named, declared]
    rfl

theorem structs_of_add? {struct : Struct} (added : types.add? struct = some more) :
    more.structs = types.structs ++ [struct] := by
  rw [add?] at added
  split at added
  next => cases added
  next =>
    cases added
    rfl

/-- A further struct changes the size of no type that was known before. -/
theorem tightSize_add? {struct : Struct} (added : types.add? struct = some more)
    {type : PropertyType} (known : type.KnownIn types.structs) :
    more.tightSize type = types.tightSize type := by
  cases type with
  | value builtIn => rfl
  | struct name =>
    obtain ⟨target, member, named⟩ := known
    have declared : (types.structs.find? (·.name == name)).isSome = true :=
      List.find?_isSome.mpr ⟨target, member, by simp [named]⟩
    have found : more.find? name = types.find? name := by
      rw [find?, find?, structs_of_add? added, List.find?_append]
      exact Option.or_of_isSome declared
    rw [tightSize, tightSize, found]

private theorem tightTotal_add? {struct : Struct} (added : types.add? struct = some more)
    {properties : List Property} (known : Known types.structs properties) :
    more.tightTotal properties = types.tightTotal properties := by
  induction properties with
  | nil => rfl
  | cons property rest ih =>
    rw [tightTotal, tightTotal, tightSize_add? added (known property List.mem_cons_self),
      ih fun other member => known other (List.mem_cons_of_mem property member)]

private theorem tightTotal_concat (properties : List Property) (last : Property) :
    types.tightTotal (properties ++ [last]) =
      types.tightTotal properties + types.tightSize last.type * last.length := by
  induction properties with
  | nil => simp [tightTotal]
  | cons property rest ih => rw [List.cons_append, tightTotal, tightTotal, ih, Nat.add_assoc]

end Types

/-- The struct has the size of its members, which are of known types. -/
structure Struct.SizedIn (types : Types) (struct : Struct) : Prop where
  known : Known types.structs struct.properties
  size : struct.size = types.tightTotal struct.properties
  bounded : struct.size ≤ wordMax

namespace Struct.SizedIn

variable {types more : Types} {struct : Struct}

theorem empty (types : Types) (name : String) : (Struct.empty name).SizedIn types where
  known := fun _ absent => (nomatch absent)
  size := rfl
  bounded := Nat.zero_le _

theorem addProperty {statement : Text} {extended : Struct} (sized : struct.SizedIn types)
    (added : TypesReader.addProperty types struct statement = .ok extended) :
    extended.SizedIn types := by
  have known := TypesReader.known_addProperty sized.known added
  obtain ⟨_, _, _, _, _, _, _, _, _, resolved, _, pushed⟩ := TypesReader.of_addProperty_ok added
  rw [Struct.push?] at pushed
  split at pushed
  next fits =>
    cases pushed
    refine ⟨known, ?_, fits⟩
    rw [Types.tightTotal_concat, ← sized.size, Types.tightSize_of_resolve? resolved]
  next => cases pushed

/-- A struct keeps its size while others are declared. -/
theorem add? {other : Struct} (sized : struct.SizedIn types)
    (added : types.add? other = some more) : struct.SizedIn more where
  known property member := by
    refine (sized.known property member).mono fun old present => ?_
    rw [Types.structs_of_add? added]
    exact List.mem_append_left _ present
  size := by
    rw [Types.tightTotal_add? added sized.known]
    exact sized.size
  bounded := sized.bounded

end Struct.SizedIn

theorem TypesReader.keeps_sizes :
    Keeps (fun types => ∀ struct ∈ types.structs, struct.SizedIn types)
      (fun types current => current.struct.SizedIn types) where
  opened types name _ := .empty types name.string
  added sized added := sized.addProperty added
  closed kept sized _ _ added := by
    intro struct member
    rw [Types.structs_of_add? added, List.mem_append, List.mem_singleton] at member
    rcases member with old | rfl
    · exact (kept struct old).add? added
    · exact sized.add? added

/-- Every struct that is read has the size of its members. -/
theorem Types.sizedIn_ofSection (text : Text) :
    ∀ struct ∈ (Types.ofSection text).value.structs,
      struct.SizedIn (Types.ofSection text).value :=
  TypesReader.keeps_sizes.ofSection (fun _ absent => (nomatch absent)) text

end ShaderPipeline.Schema
