import ShaderPipeline.Proofs.Memory.Chains
import ShaderPipeline.Proofs.Memory.CheckedPlacement
import ShaderPipeline.Proofs.Schema.ProperTypes

/-! Layouts of structs that are added one after another, whatever types their members name. Only
the structs before a struct count for its members, so a struct that names itself or a later one is
laid out as if that one were unknown. -/

namespace ShaderPipeline

namespace Schema.Types

/-- The types with a struct behind the others, or as they are if its name is taken. -/
def added (types : Types) (struct : Struct) : Types := (types.add? struct).getD types

/-- Structs that are added one after another. -/
def ofStructs (structs : List Struct) : Types := structs.foldl added .empty

private theorem nodup_foldl_added {types : Types} (names : (types.structs.map Struct.name).Nodup)
    (structs : List Struct) : ((structs.foldl added types).structs.map Struct.name).Nodup := by
  induction structs generalizing types with
  | nil => exact names
  | cons struct rest ih =>
    refine ih ?_
    rw [added]
    cases kept : types.add? struct with
    | none => exact names
    | some more =>
      rw [Option.getD_some, structs_of_add? kept]
      exact nodup_map_append_singleton names (fresh_of_add? kept)

private theorem nodup_ofStructs (structs : List Struct) :
    ((ofStructs structs).structs.map Struct.name).Nodup :=
  @nodup_foldl_added .empty List.nodup_nil structs

private theorem mem_foldl_added {types : Types} {structs : List Struct} :
    ∀ struct ∈ (structs.foldl added types).structs, struct ∈ types.structs ∨ struct ∈ structs := by
  induction structs generalizing types with
  | nil => exact fun struct member => .inl member
  | cons first rest ih =>
    intro struct member
    rcases ih struct member with here | later
    · rw [added] at here
      cases kept : types.add? first with
      | none =>
        rw [kept] at here
        exact .inl here
      | some more =>
        rw [kept, Option.getD_some, structs_of_add? kept, List.mem_append,
          List.mem_singleton] at here
        exact here.imp_right fun same => List.mem_cons.mpr (.inl same)
    · exact .inr (List.mem_cons_of_mem first later)

private theorem mem_of_ofStructs {structs : List Struct} :
    ∀ struct ∈ (ofStructs structs).structs, struct ∈ structs :=
  fun struct member => (mem_foldl_added struct member).resolve_left List.not_mem_nil

end Schema.Types

namespace Memory

open Schema

variable {rule : Rule} {sizes : Nesting}

/-! ### Which structs count -/

private theorem placeIn_eq_none_iff {structs : List Struct} {name : String} :
    placeIn rule structs name = none ↔ ∀ struct ∈ structs, struct.name ≠ name := by
  induction structs with
  | nil => simp [placeIn]
  | cons struct earlier ih =>
    rw [placeIn, List.forall_mem_cons, ← ih]
    by_cases same : struct.name = name <;> simp [same]

private theorem placeStruct_eq_none_iff {types : Types} {name : String} :
    placeStruct types rule name = none ↔ ∀ struct ∈ types.structs, struct.name ≠ name := by
  simp [placeStruct, placeIn_eq_none_iff]

/-- A struct is laid out with the sizes of the structs before it, so the search goes on in fewer
structs and ends. -/
theorem placeStruct_split {types : Types} (names : (types.structs.map Struct.name).Nodup)
    {earlier later : List Struct} {struct : Struct}
    (split : types.structs = earlier ++ struct :: later) :
    placeStruct types rule struct.name =
      some (place struct.name struct.properties rule (nesting ⟨earlier⟩ rule)) := by
  have apart : ∀ other ∈ later.reverse, other.name ≠ struct.name := by
    intro other member
    rw [split, List.map_append, List.map_cons, List.nodup_append] at names
    intro same
    refine (List.nodup_cons.mp names.2.1).1 (List.mem_map.mpr ⟨other, ?_, same⟩)
    exact List.mem_reverse.mp member
  rw [placeStruct, split, List.reverse_append, List.reverse_cons, List.append_assoc,
    List.singleton_append, placeIn_append apart, placeIn, if_pos rfl]
  rfl

/-- A struct that is not declared, or not yet, has no size. -/
theorem nesting_absent {types : Types} {name : String}
    (absent : ∀ struct ∈ types.structs, struct.name ≠ name) :
    nesting types rule name = pure none := by
  rw [nesting, placeIn_eq_none_iff.mpr fun struct member =>
    absent struct (List.mem_reverse.mp member)]

/-! ### What every layout gives -/

/-- Members of a layout lie one behind the other, in the order in which they were declared. -/
structure Placements.Chained (placements : Placements) (name : String) (rule : Rule)
    (sizes : Nesting) (properties : List Property) : Prop where
  named : placements.name = name
  ruled : placements.rule = rule
  /-- A member is left out only where its type is unknown or it does not fit. -/
  course : Places rule sizes 0 properties placements.members (lastEnd placements.members)
  /-- The members that are placed are some of those declared, in their order. -/
  subsequence : ∃ chosen : List Property, chosen.Sublist properties ∧
    List.Forall₂ (Represents rule sizes) chosen placements.members
  first : ∀ member, placements.members[0]? = some member → member.offset = 0
  next : ∀ (index : Nat) (member following : Placement),
    placements.members[index]? = some member →
      placements.members[index + 1]? = some following →
        following.offset = member.offset + member.size
  size : ∀ member ∈ placements.members, member.size = member.stride * member.length
  total : rule.structSize (lastEnd placements.members) = .ok placements.size
  /-- The end of every member can be rounded up in 32 bits. -/
  bounded : (∀ member ∈ placements.members,
    Rule.roundUp (member.offset + member.size) ≤ wordMax) ∧ placements.size ≤ wordMax
  aligned : rule = .std140 →
    (∀ member ∈ placements.members, 16 ∣ member.stride ∧ 16 ∣ member.offset) ∧
      16 ∣ placements.size

/-- A layout of members. Only the subtraction of an element's bytes from too few can fail. -/
def LaysOut (name : String) (rule : Rule) (sizes : Nesting) (properties : List Property)
    (layout : Measured Placements) : Prop :=
  layout.result = .error .subtract ∨
    ∃ placements, layout.result = .ok placements ∧
      placements.Chained name rule sizes properties

/-- What the sizes of all elements have in common. -/
structure Sound (rule : Rule) (size : Measured (Option ElementSize)) : Prop where
  failure : ∀ overflow, size.result = .error overflow → overflow = .subtract
  aligned : rule = .std140 → ∀ element, size.result = .ok (some element) → 16 ∣ element.padded

theorem Rule.dvd_roundUp (size : Nat) : 16 ∣ Rule.roundUp size := Nat.dvd_mul_left 16 _

theorem Sound.elementSize (sound : ∀ name, Sound rule (sizes name)) (type : PropertyType) :
    Sound rule (elementSize rule sizes type) := by
  cases type with
  | struct name => exact sound name
  | value builtIn =>
    constructor
    · intro overflow failed
      cases failed
    · rintro rfl element sized
      cases sized
      exact Nat.dvd_mul_right 16 builtIn.columns

private theorem laysOut_place (sound : ∀ name, Sound rule (sizes name)) (name : String)
    (properties : List Property) :
    LaysOut name rule sizes properties (place name properties rule sizes) := by
  rcases result_place name properties with
    ⟨overflow, failed, outcome⟩ | ⟨members, finish, _, placed, _⟩
  · refine .inl (outcome.trans ?_)
    rw [eq_subtract_of_error (fun inner => (sound inner).failure) failed]
  · have places := places_of_ok placed
    have bounded : Rule.roundUp finish ≤ wordMax := roundUp_le_of_placeFrom (by decide) placed
    refine .inr ⟨_, result_place_of_ok placed, ?_⟩
    exact {
      named := rfl
      ruled := rfl
      course := places.chain.finish_eq_lastEnd ▸ places
      subsequence := places.subsequence
      first := fun member => places.chain.first
      next := fun index member following => places.chain.next
      size := places.chain.size
      total := by
        rw [← places.chain.finish_eq_lastEnd]
        exact structSize_eq rule bounded
      bounded := by
        refine ⟨places.bounded, ?_⟩
        cases rule with
        | std140 => exact bounded
        | std430 | packed => exact Nat.le_trans (Rule.le_roundUp finish) bounded
      aligned := by
        rintro rfl
        have elements (type : PropertyType) := (Sound.elementSize sound type).aligned rfl
        exact ⟨(places.aligned elements (Nat.dvd_zero 16)).1, Rule.dvd_roundUp finish⟩ }

/-- The size of a struct that is laid out, as an element of another. -/
theorem LaysOut.sound {name : String} {properties : List Property} {layout : Measured Placements}
    (laid : LaysOut name rule sizes properties layout) (tight : Nat) :
    Sound rule (do return some ⟨(← layout).size, tight⟩) := by
  rcases laid with failed | ⟨placements, answered, chained⟩
  · constructor
    · intro overflow outcome
      rw [Measured.result_bind, failed] at outcome
      cases outcome
      rfl
    · intro _ element outcome
      rw [Measured.result_bind, failed] at outcome
      cases outcome
  · constructor
    · intro overflow outcome
      rw [Measured.result_bind, answered] at outcome
      cases outcome
    · intro std140 element outcome
      rw [Measured.result_bind, answered] at outcome
      cases outcome
      exact (chained.aligned std140).2

private theorem sizesIn_cons (struct : Struct) (earlier : List Struct) (name : String) :
    sizesIn rule (struct :: earlier) name =
      if struct.name = name then do
        return some ⟨(← place struct.name struct.properties rule (sizesIn rule earlier)).size,
          struct.size⟩
      else sizesIn rule earlier name := by
  by_cases same : struct.name = name
  · rw [if_pos same, sizesIn, placeIn, if_pos same]
    rfl
  · rw [if_neg same]
    exact sizesIn_congr (if_neg same)

/-- Each struct is laid out with the sizes of those before it. -/
theorem sound_sizesIn (rule : Rule) (structs : List Struct) (name : String) :
    Sound rule (sizesIn rule structs name) := by
  -- The list grows from the first declaration on, so that what a struct may name comes before it.
  induction structs generalizing name with
  | nil =>
    constructor
    · intro overflow failed
      cases failed
    · intro _ element sized
      cases sized
  | cons struct earlier ih =>
    rw [sizesIn_cons]
    split
    -- its size is a multiple of sixteen bytes where those of all structs before it are
    · exact (laysOut_place ih struct.name struct.properties).sound struct.size
    · exact ih name

/-- The layouts of structs and of buffer blocks over them, under a rule. -/
structure InTurn (types : Types) (rule : Rule) : Prop where
  /-- The declared structs are those that have a layout. -/
  declared : ∀ name, placeStruct types rule name = none ↔
    ∀ struct ∈ types.structs, struct.name ≠ name
  /-- A struct is laid out with the sizes of those before it, and no number leaves 32 bits. -/
  structs : ∀ (earlier : List Struct) (struct : Struct) (later : List Struct),
    types.structs = earlier ++ struct :: later →
      ∃ layout, placeStruct types rule struct.name = some layout ∧
        layout = place struct.name struct.properties rule (nesting ⟨earlier⟩ rule) ∧
        checkedPlaceStruct types rule struct.name = some layout ∧
        LaysOut struct.name rule (nesting ⟨earlier⟩ rule) struct.properties layout
  /-- The struct itself, those behind it and unknown ones have no size there. -/
  absent : ∀ (earlier : List Struct) (name : String),
    (∀ struct ∈ earlier, struct.name ≠ name) → nesting ⟨earlier⟩ rule name = pure none
  blocks : ∀ block : BufferBlock, InBytes block.properties →
    checkedPlaceBlock types rule block = block.place rule types ∧
      LaysOut block.name rule (nesting types rule) block.properties (block.place rule types)

/-- Whatever structs are added, every layout ends, and what it gives is in order. -/
theorem inTurn_ofStructs (rule : Rule) {structs : List Struct}
    (bytes : ∀ struct ∈ structs, InBytes struct.properties) :
    InTurn (Types.ofStructs structs) rule := by
  have small : ∀ struct ∈ (Types.ofStructs structs).structs, InBytes struct.properties :=
    fun struct member => bytes struct (Types.mem_of_ofStructs struct member)
  have sound (types : Types) (name : String) : Sound rule (nesting types rule name) :=
    sound_sizesIn rule types.structs.reverse name
  constructor
  case declared => exact fun name => placeStruct_eq_none_iff
  case structs =>
    intro earlier struct later split
    have found := @placeStruct_split rule _ (Types.nodup_ofStructs structs) _ _ _ split
    refine ⟨_, found, rfl, ?_, laysOut_place (sound ⟨earlier⟩) struct.name struct.properties⟩
    rw [checkedPlaceStruct_eq small, found]
  case absent => exact fun earlier name absent => nesting_absent absent
  case blocks =>
    intro block own
    exact ⟨checkedPlaceBlock_eq small own,
      laysOut_place (sound (Types.ofStructs structs)) block.name block.properties⟩

/-- A struct with members of its own type, of a later struct and of no struct at all, one that
holds the first, and one whose name is taken. -/
def tangledStructs : List Struct :=
  [⟨"Node", [⟨"self", .struct "Node", 1⟩, ⟨"tree", .struct "Tree", 2⟩,
      ⟨"at", .value (.vector .float 3), 3⟩], 36⟩,
    ⟨"Tree", [⟨"leaf", .struct "Leaf", 1⟩, ⟨"nodes", .struct "Node", 2⟩,
      ⟨"depth", .value .float, 1⟩], 76⟩,
    ⟨"Node", [], 0⟩]

theorem inTurn_tangledStructs :
    (∀ struct ∈ tangledStructs, InBytes struct.properties) ∧
      InTurn (Types.ofStructs tangledStructs) .std140 ∧
      (placeStruct (Types.ofStructs tangledStructs) .std140 "Tree").map Measured.result =
        some (.ok ⟨"Tree", .std140,
          [⟨"nodes", 0, 48, 2, 96, 12⟩, ⟨"depth", 96, 16, 1, 16, 12⟩], 112⟩) := by
  have bytes : ∀ struct ∈ tangledStructs, InBytes struct.properties := by decide
  exact ⟨bytes, inTurn_ofStructs .std140 bytes, by decide +kernel⟩

end Memory

end ShaderPipeline
