import ShaderPipeline.Proofs.Memory.SideBySide
import ShaderPipeline.Proofs.Memory.Undersized
import ShaderPipeline.Schema.Uniform

/-! Placement with every sum and product checked to stay in 32 bits. It is the same computation, so
no such check ever fails. -/

namespace ShaderPipeline.Memory

open Schema

/-- A sum or a product that has to stay in 32 bits. -/
def checked (number : Nat) : Measured Nat :=
  if number ≤ wordMax then return number else throw .add

private theorem checked_eq {number : Nat} (small : number ≤ wordMax) :
    checked number = pure number :=
  if_pos small

/-- The size of a value with its padding. -/
def checkedValueSize (rule : Rule) (type : ValueType) : Measured Nat := do
  let tight ← checked (4 * type.rows)
  let column :=
    match rule with
    | .std140 => 16
    | .std430 => if type.rows = 3 then 16 else tight
    | .packed => tight
  checked (column * type.columns)

/-- The size of a value without padding. -/
def checkedTightSize (type : ValueType) : Measured Nat := do
  let column ← checked (4 * type.rows)
  checked (column * type.columns)

def checkedElementSize (rule : Rule) (nesting : Nesting) :
    PropertyType → Measured (Option ElementSize)
  | .value type => do
    let padded ← checkedValueSize rule type
    let tight ← checkedTightSize type
    return some ⟨padded, tight⟩
  | .struct name => nesting name

def checkedPlaceFrom (outer : String) (rule : Rule) (nesting : Nesting) (offset : Nat) :
    List Property → Measured (List Placement × Nat)
  | [] => return ([], offset)
  | property :: rest => do
    match ← checkedElementSize rule nesting property.type with
    | none =>
      Measured.warn (Problem.unknownStruct outer property.name property.type.name).message
      checkedPlaceFrom outer rule nesting offset rest
    | some element =>
      -- The guard is the only place where a number may be out of 32 bits.
      if fits offset (element.padded * property.length) then
        let size ← checked (element.padded * property.length)
        if element.padded < element.tight then throw .subtract
        let next ← checked (offset + size)
        let (members, finish) ← checkedPlaceFrom outer rule nesting next rest
        return (⟨property.name, offset, element.padded, property.length, size,
          element.padded - element.tight⟩ :: members, finish)
      else
        Measured.warn (Problem.tooLarge outer property.name property.length element.padded).message
        checkedPlaceFrom outer rule nesting offset rest

def checkedPlace (name : String) (properties : List Property) (rule : Rule) (nesting : Nesting) :
    Measured Placements := do
  let (members, finish) ← checkedPlaceFrom name rule nesting 0 properties
  let size ←
    match rule with
    | .std140 => checked (Rule.roundUp finish)
    | .std430 | .packed => pure finish
  return ⟨name, rule, members, size⟩

/-- The element size of a struct that a search finds. -/
def foundSize : Option (Struct × Measured Placements) → Measured (Option ElementSize)
  | none => return none
  | some (found, placements) => return some ⟨(← placements).size, found.size⟩

def checkedPlaceIn (rule : Rule) :
    (structs : List Struct) → String → Option (Struct × Measured Placements)
  | [], _ => none
  | struct :: earlier, name =>
    if struct.name = name then
      some (struct, checkedPlace struct.name struct.properties rule fun nested =>
        foundSize (checkedPlaceIn rule earlier nested))
    else checkedPlaceIn rule earlier name

def checkedPlaceStruct (types : Types) (rule : Rule) (name : String) :
    Option (Measured Placements) :=
  (checkedPlaceIn rule types.structs.reverse name).map Prod.snd

def checkedSizesIn (rule : Rule) (structs : List Struct) : Nesting := fun name =>
  foundSize (checkedPlaceIn rule structs name)

def checkedPlaceBlock (types : Types) (rule : Rule) (block : BufferBlock) : Measured Placements :=
  checkedPlace block.name block.properties rule (checkedSizesIn rule types.structs.reverse)

/-- The numbers of rows and columns of a built-in type take a byte each. -/
def TypeInBytes : PropertyType → Prop
  | .value type => type.rows < 256 ∧ type.columns < 256
  | .struct _ => True

instance : DecidablePred TypeInBytes
  | .value type => inferInstanceAs (Decidable (type.rows < 256 ∧ type.columns < 256))
  | .struct _ => .isTrue trivial

def InBytes (properties : List Property) : Prop :=
  ∀ property ∈ properties, TypeInBytes property.type

instance : DecidablePred InBytes := fun properties =>
  inferInstanceAs (Decidable (∀ property ∈ properties, TypeInBytes property.type))

section Values

variable {type : ValueType}

private theorem column_mul_le {column : Nat} (small : column ≤ 4 * 256)
    (columns : type.columns < 256) : column * type.columns ≤ wordMax := by
  have product : column * type.columns ≤ 4 * 256 * 256 :=
    Nat.mul_le_mul small (Nat.le_of_lt columns)
  exact Nat.le_trans product (by decide)

variable (rows : type.rows < 256) (columns : type.columns < 256)
include rows columns

private theorem checkedValueSize_eq (rule : Rule) :
    checkedValueSize rule type = pure (rule.valueSize type) := by
  have column : 4 * type.rows ≤ wordMax := by
    rw [wordMax]
    omega
  have small : rule.columnSize type.rows ≤ 4 * 256 := by
    cases rule <;> simp only [Rule.columnSize] <;> (try split) <;> omega
  rw [checkedValueSize, checked_eq column, pure_bind, Rule.valueSize,
    ← checked_eq (column_mul_le small columns)]
  cases rule <;> rfl

private theorem checkedTightSize_eq : checkedTightSize type = pure type.size := by
  have column : 4 * type.rows ≤ wordMax := by
    rw [wordMax]
    omega
  rw [checkedTightSize, checked_eq column, pure_bind, ValueType.size]
  exact checked_eq (column_mul_le (by omega) columns)

end Values

section Placing

variable {rule : Rule} {sizes : Nesting} {offset : Nat} {properties : List Property}

private theorem checkedElementSize_eq {type : PropertyType} (bytes : TypeInBytes type) :
    checkedElementSize rule sizes type = elementSize rule sizes type := by
  cases type with
  | value builtIn =>
    obtain ⟨rows, columns⟩ := bytes
    rw [checkedElementSize, checkedValueSize_eq rows columns, checkedTightSize_eq rows columns]
    rfl
  | struct name => rfl

private theorem checkedPlaceFrom_eq (outer : String) (bytes : InBytes properties) :
    checkedPlaceFrom outer rule sizes offset properties =
      placeFrom outer rule sizes offset properties := by
  induction properties generalizing offset with
  | nil => rfl
  | cons property rest ih =>
    have others (next : Nat) := @ih next fun other member =>
      bytes other (List.mem_cons_of_mem property member)
    rw [checkedPlaceFrom, placeFrom, checkedElementSize_eq (bytes property List.mem_cons_self)]
    refine bind_congr fun element? => ?_
    cases element? with
    | none => simp only [others]
    | some element =>
      dsimp only
      by_cases room : fits offset (element.padded * property.length) = true
      · have guarded := room
        rw [fits, Bool.and_eq_true, decide_eq_true_eq, decide_eq_true_eq] at guarded
        have sum := Nat.le_trans (Rule.le_roundUp _) guarded.2
        rw [if_pos room, if_pos room, checked_eq guarded.1, pure_bind, checked_eq sum]
        simp only [pure_bind, others]
      · rw [if_neg room, if_neg room, others]

private theorem checkedPlace_eq (name : String) (bytes : InBytes properties) :
    checkedPlace name properties rule sizes = place name properties rule sizes := by
  rw [checkedPlace, place, checkedPlaceFrom_eq name bytes]
  refine bind_congr fun ends => ?_
  cases rule with
  | std140 =>
    simp only [checked, Rule.structSize]
    split <;> rfl
  | std430 => rfl
  | packed => rfl

private theorem checkedSizesIn_eq {structs : List Struct}
    (same : checkedPlaceIn rule structs = placeIn rule structs) :
    checkedSizesIn rule structs = sizesIn rule structs :=
  funext fun name => congrArg foundSize (congrFun same name)

private theorem checkedPlaceIn_eq {structs : List Struct}
    (bytes : ∀ struct ∈ structs, InBytes struct.properties) :
    checkedPlaceIn rule structs = placeIn rule structs := by
  induction structs with
  | nil => rfl
  | cons struct earlier ih =>
    obtain ⟨own, others⟩ := List.forall_mem_cons.mp bytes
    have inner := checkedSizesIn_eq (ih others)
    funext name
    by_cases same : struct.name = name
    · rw [checkedPlaceIn, if_pos same, checkedPlace_eq struct.name own, placeIn, if_pos same]
      exact congrArg (fun sizes => some (struct, place struct.name struct.properties rule sizes))
        inner
    · rw [checkedPlaceIn, if_neg same, placeIn, if_neg same, ih others]

variable {types : Types} (bytes : ∀ struct ∈ types.structs, InBytes struct.properties)
include bytes

theorem checkedPlaceStruct_eq (name : String) :
    checkedPlaceStruct types rule name = placeStruct types rule name := by
  rw [checkedPlaceStruct, placeStruct,
    checkedPlaceIn_eq fun struct member => bytes struct (List.mem_reverse.mp member)]

theorem checkedPlaceBlock_eq {block : BufferBlock} (own : InBytes block.properties) :
    checkedPlaceBlock types rule block = block.place rule types := by
  have sizes : checkedSizesIn rule types.structs.reverse = nesting types rule :=
    checkedSizesIn_eq (checkedPlaceIn_eq fun struct member =>
      bytes struct (List.mem_reverse.mp member))
  rw [checkedPlaceBlock, BufferBlock.place, checkedPlace_eq block.name own, sizes]

end Placing

end ShaderPipeline.Memory
