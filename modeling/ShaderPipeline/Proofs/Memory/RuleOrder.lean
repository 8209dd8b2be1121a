import ShaderPipeline.Proofs.Memory.SideBySide
import ShaderPipeline.Proofs.Memory.Undersized
import ShaderPipeline.Proofs.Schema.Sizes

/-! The layouts of a struct under the three rules. Without padding a layout has the declared size;
from `packed` to `std430` and on to `std140` no member moves to a lower offset and no struct gets
smaller. So where `std140` leaves no member out, at any depth, the others leave none out either. -/

namespace ShaderPipeline.Memory

open Schema

/-- The struct is laid out under a rule, and its layout is `placements`. -/
def LaidOut (types : Types) (rule : Rule) (struct : Struct) (placements : Placements) : Prop :=
  ∃ layout, placeStruct types rule struct.name = some layout ∧ layout.result = .ok placements

/-- The layout, if there is one, has every member of the struct. -/
def LeavesNoneOut (types : Types) (rule : Rule) (struct : Struct) : Prop :=
  ∀ placements, LaidOut types rule struct placements →
    placements.members.map Placement.name = struct.properties.map Property.name

/-- The structs of the members of a struct, of their members and so on, and the struct itself. -/
inductive Reaches (types : Types) : Struct → Struct → Prop
  | self (struct : Struct) : Reaches types struct struct
  | member {outer inner last : Struct} {property : Property} (member : property ∈ outer.properties)
      (type : property.type = .struct inner.name) (declared : inner ∈ types.structs)
      (further : Reaches types inner last) : Reaches types outer last

/-- Layouts of a struct under the three rules, each with every member. -/
structure Ordered (struct : Struct) (packed std430 std140 : Placements) : Prop where
  packed_names : packed.members.map Placement.name = struct.properties.map Property.name
  std430_names : std430.members.map Placement.name = struct.properties.map Property.name
  std140_names : std140.members.map Placement.name = struct.properties.map Property.name
  declared : struct.size = packed.size
  packed_le : packed.size ≤ std430.size
  std430_le : std430.size ≤ std140.size
  offsets : ∀ (index : Nat) (first second third : Placement),
    packed.members[index]? = some first → std430.members[index]? = some second →
      std140.members[index]? = some third →
        first.offset ≤ second.offset ∧ second.offset ≤ third.offset
  unpadded : ∀ member ∈ packed.members, member.padding = 0

variable {types : Types}

private theorem laidOut_iff {rule : Rule} (valid : types.WellFormed) {struct : Struct}
    (member : struct ∈ types.structs) {placements : Placements} :
    LaidOut types rule struct placements ↔
      (place struct.name struct.properties rule (nesting types rule)).result = .ok placements := by
  rw [LaidOut, placeStruct_declared valid member]
  simp

theorem Reaches.trans {first second third : Struct} (start : Reaches types first second)
    (further : Reaches types second third) : Reaches types first third := by
  induction start with
  | self => exact further
  | member present type declared _ ih => exact .member present type declared (ih further)

theorem Reaches.declared {first last : Struct} (path : Reaches types first last)
    (start : first ∈ types.structs) : last ∈ types.structs := by
  induction path with
  | self => exact start
  | member _ _ declared _ ih => exact ih declared

/-! ### Elements under the three rules -/

/-- Bytes that an element of a type takes under a rule. -/
def paddedSize (types : Types) (rule : Rule) (type : PropertyType) : Nat :=
  match (elementSize rule (nesting types rule) type).result with
  | .ok (some element) => element.padded
  | _ => 0

/-- The elements of all types under a rule. -/
def elementsOf (types : Types) (rule : Rule) : Elements :=
  fun type => ⟨paddedSize types rule type, types.tightSize type⟩

/-- An element of the type has a size under every rule, and takes more room from one rule to the
next. -/
structure Widens (types : Types) (type : PropertyType) : Prop where
  sized : ∀ rule, (elementSize rule (nesting types rule) type).result =
    .ok (some (elementsOf types rule type))
  packed : paddedSize types .packed type = types.tightSize type
  std430 : paddedSize types .packed type ≤ paddedSize types .std430 type
  std140 : paddedSize types .std430 type ≤ paddedSize types .std140 type

/-- Columns of every built-in type take more room from one rule to the next. -/
theorem valueSize_le : ∀ type ∈ ValueType.all,
    Rule.packed.valueSize type = type.size ∧
      Rule.packed.valueSize type ≤ Rule.std430.valueSize type ∧
      Rule.std430.valueSize type ≤ Rule.std140.valueSize type := by
  decide

private theorem widens_value {type : ValueType} (listed : type ∈ ValueType.all) :
    Widens types (.value type) := by
  obtain ⟨tight, packed, std430⟩ := valueSize_le type listed
  exact ⟨fun rule => rfl, tight, packed, std430⟩

/-- Three layouts in order give three element sizes in order. -/
theorem widens_struct (valid : types.WellFormed) {inner : Struct}
    (declared : inner ∈ types.structs) {packed std430 std140 : Placements}
    (first : LaidOut types .packed inner packed) (second : LaidOut types .std430 inner std430)
    (third : LaidOut types .std140 inner std140) (tight : inner.size = packed.size)
    (packed_le : packed.size ≤ std430.size) (std430_le : std430.size ≤ std140.size) :
    Widens types (.struct inner.name) := by
  have sized {rule : Rule} {placements : Placements} (laid : LaidOut types rule inner placements) :
      (elementSize rule (nesting types rule) (.struct inner.name)).result =
        .ok (some ⟨placements.size, inner.size⟩) := by
    rw [result_elementSize_struct rule valid declared, (laidOut_iff valid declared).mp laid]
    rfl
  have padded {rule : Rule} {placements : Placements}
      (laid : LaidOut types rule inner placements) :
      paddedSize types rule (.struct inner.name) = placements.size := by
    rw [paddedSize, sized laid]
  have whole {rule : Rule} {placements : Placements}
      (laid : LaidOut types rule inner placements) :
      (elementSize rule (nesting types rule) (.struct inner.name)).result =
        .ok (some (elementsOf types rule (.struct inner.name))) := by
    rw [sized laid, elementsOf, padded laid, Types.tightSize_declared valid declared]
  refine ⟨fun rule => ?_, ?_, ?_, ?_⟩
  · cases rule with
    | packed => exact whole first
    | std430 => exact whole second
    | std140 => exact whole third
  · rw [padded first, Types.tightSize_declared valid declared, tight]
  · rw [padded first, padded second]
    exact packed_le
  · rw [padded second, padded third]
    exact std430_le

theorem Widens.tight_le {type : PropertyType} (widens : Widens types type) (rule : Rule) :
    types.tightSize type ≤ paddedSize types rule type := by
  have packed := widens.packed
  have std430 := widens.std430
  have std140 := widens.std140
  cases rule <;> omega

/-- Without padding members take the bytes that the struct was declared with. -/
theorem behind_packed (offset : Nat) {properties : List Property}
    (widens : ∀ property ∈ properties, Widens types property.type) :
    behind (elementsOf types .packed) offset properties = offset + types.tightTotal properties := by
  induction properties generalizing offset with
  | nil => rfl
  | cons property rest ih =>
    have own := (widens property List.mem_cons_self).packed
    rw [behind, ih _ fun other member => widens other (List.mem_cons_of_mem property member),
      Types.tightTotal, Elements.span, elementsOf, own, Nat.add_assoc]

/-! ### Structs under the three rules -/

/-- The layout of a struct that has all of its members. -/
def wholeLayout (types : Types) (rule : Rule) (struct : Struct) : Placements :=
  ⟨struct.name, rule, sideBySide (elementsOf types rule) 0 struct.properties,
    rule.rounded (behind (elementsOf types rule) 0 struct.properties)⟩

section Struct

variable {struct : Struct} (widens : ∀ property ∈ struct.properties, Widens types property.type)
include widens

private theorem sized_of_widens (rule : Rule) :
    Sized rule (nesting types rule) (elementsOf types rule) struct.properties :=
  fun property member =>
    ⟨(widens property member).sized rule, (widens property member).tight_le rule⟩

private theorem grows_packed :
    Grows (elementsOf types .packed) (elementsOf types .std430) struct.properties :=
  fun property member => (widens property member).std430

private theorem grows_std430 :
    Grows (elementsOf types .std430) (elementsOf types .std140) struct.properties :=
  fun property member => (widens property member).std140

/-- A struct whose members all fit has the layout with all of them. -/
theorem result_place_of_allFit {rule : Rule}
    (room : AllFit (elementsOf types rule) 0 struct.properties) :
    (place struct.name struct.properties rule (nesting types rule)).result =
      .ok (wholeLayout types rule struct) :=
  result_place_of_ok ((sized_of_widens widens rule).result_of_allFit struct.name room)

/-- If `std140` leaves no member out, every member fits under every rule. -/
theorem allFit_of_leavesNoneOut (valid : types.WellFormed) (declared : struct ∈ types.structs)
    (complete : LeavesNoneOut types .std140 struct) (rule : Rule) :
    AllFit (elementsOf types rule) 0 struct.properties := by
  have sized := sized_of_widens widens .std140
  have std140 : AllFit (elementsOf types .std140) 0 struct.properties := by
    obtain ⟨members, finish, placed, _⟩ := @Sized.placed _ _ _ 0 _ sized struct.name
    have laid := (laidOut_iff valid declared).mpr (result_place_of_ok placed)
    have lengths := congrArg List.length (complete _ laid)
    rw [List.length_map, List.length_map] at lengths
    exact sized.allFit_of_length placed lengths
  have std430 := (grows_std430 widens).allFit (Nat.le_refl 0) std140
  cases rule with
  | std140 => exact std140
  | std430 => exact std430
  | packed => exact (grows_packed widens).allFit (Nat.le_refl 0) std430

/-- The layouts under the three rules are in order. -/
theorem ordered_of_widens (sized : struct.SizedIn types) :
    Ordered struct (wholeLayout types .packed struct) (wholeLayout types .std430 struct)
      (wholeLayout types .std140 struct) := by
  have packed := grows_packed widens
  have std430 := grows_std430 widens
  constructor
  · exact map_name_sideBySide _ _ _
  · exact map_name_sideBySide _ _ _
  · exact map_name_sideBySide _ _ _
  · have total := behind_packed 0 widens
    rw [Nat.zero_add, ← sized.size] at total
    exact total.symm
  · exact packed.behind (Nat.le_refl 0)
  · exact Nat.le_trans (std430.behind (Nat.le_refl 0)) (Rule.le_roundUp _)
  · intro index first second third here there beyond
    exact ⟨packed.offset (Nat.le_refl 0) here there, std430.offset (Nat.le_refl 0) there beyond⟩
  · exact padding_sideBySide 0 fun property member => (widens property member).packed

end Struct

/-- The struct is laid out under every rule, and the layouts are in order. -/
def LaidOutInOrder (types : Types) (struct : Struct) : Prop :=
  ∃ packed std430 std140, LaidOut types .packed struct packed ∧
    LaidOut types .std430 struct std430 ∧ LaidOut types .std140 struct std140 ∧
    Ordered struct packed std430 std140

private theorem laidOutInOrder_of_widens (valid : types.WellFormed) {struct : Struct}
    (declared : struct ∈ types.structs) (sized : struct.SizedIn types)
    (widens : ∀ property ∈ struct.properties, Widens types property.type)
    (complete : LeavesNoneOut types .std140 struct) : LaidOutInOrder types struct := by
  have laid (rule : Rule) : LaidOut types rule struct (wholeLayout types rule struct) := by
    rw [laidOut_iff valid declared]
    exact result_place_of_allFit widens (allFit_of_leavesNoneOut widens valid declared complete rule)
  exact ⟨_, _, _, laid .packed, laid .std430, laid .std140, ordered_of_widens widens sized⟩

/-- Where `std140` leaves out no member of a struct, nor of any struct that its members reach, all
three layouts of these structs have every member and are in order. -/
theorem layouts_ordered (text : Text) :
    let types := (Types.ofSection text).value
    ∀ struct ∈ types.structs,
      (∀ inner, Reaches types struct inner → LeavesNoneOut types .std140 inner) →
      ∀ inner, Reaches types struct inner → LaidOutInOrder types inner := by
  intro types struct member complete inner path
  have valid : types.WellFormed := Types.wellFormed_ofSection text
  have sized := Types.sizedIn_ofSection text
  have ordered : ∀ outer ∈ types.structs,
      (∀ inner, Reaches types outer inner → LeavesNoneOut types .std140 inner) →
        LaidOutInOrder types outer := by
    refine valid.induction fun outer declared nested complete => ?_
    refine laidOutInOrder_of_widens valid declared (sized outer declared) ?_
      (complete outer (.self outer))
    intro property present
    have known := (sized outer declared).known property present
    cases type : property.type with
    | value builtIn =>
      rw [type] at known
      exact widens_value known
    | struct name =>
      rw [type] at known
      obtain ⟨target, found, rfl⟩ := known
      obtain ⟨packed, std430, std140, first, second, third, order⟩ :=
        nested target found property present type fun last further =>
          complete last (.member present type found further)
      exact widens_struct valid found first second third order.declared order.packed_le
        order.std430_le
  exact ordered inner (path.declared member) fun last further => complete last (path.trans further)

/-- A struct with a matrix and an array of structs between other members. -/
def sceneText : Text :=
  "struct Light \x7b vec3 at; float power; \x7d;\n".toList ++
    "struct Scene \x7b mat3 view; Light lights[2]; float time; \x7d;".toList

def light : Struct :=
  ⟨"Light", [⟨"at", .value (.vector .float 3), 1⟩, ⟨"power", .value .float, 1⟩], 16⟩

def scene : Struct :=
  ⟨"Scene", [⟨"view", .value (.matrix 3), 1⟩, ⟨"lights", .struct "Light", 2⟩,
    ⟨"time", .value .float, 1⟩], 72⟩

theorem layouts_ordered_scene :
    let types := (Types.ofSection sceneText).value
    scene ∈ types.structs ∧ Reaches types scene light ∧
      (∀ inner, Reaches types scene inner → LeavesNoneOut types .std140 inner) ∧
      LaidOutInOrder types scene ∧ LaidOutInOrder types light := by
  intro types
  have declared : types.structs = [light, scene] := by decide +kernel
  have member : scene ∈ types.structs := by simp [declared]
  have names : ∀ struct ∈ [light, scene],
      (placeStruct types .std140 struct.name).map (fun layout =>
        layout.result.toOption.map fun placements => placements.members.map Placement.name) =
          some (some (struct.properties.map Property.name)) := by
    decide +kernel
  have complete : ∀ inner, Reaches types scene inner → LeavesNoneOut types .std140 inner := by
    intro inner path placements
    rintro ⟨layout, found, answered⟩
    have present := path.declared member
    rw [declared] at present
    have all := names inner present
    rw [found] at all
    simp only [Option.map_some, answered, Except.toOption, Option.some.injEq] at all
    exact all
  have nested : Reaches types scene light :=
    @Reaches.member types scene light light ⟨"lights", .struct "Light", 2⟩ (by simp [scene]) rfl
      (by simp [declared]) (.self light)
  have ordered := layouts_ordered sceneText scene member complete
  exact ⟨member, nested, complete, ordered scene (.self scene), ordered light nested⟩

end ShaderPipeline.Memory
