import ShaderPipeline.Log
import ShaderPipeline.Memory.Rule
import ShaderPipeline.Schema.Types

/-! Placement of members in memory: each member starts where the one before it ends, and takes
its padded element size once for each of its elements. A member of an unknown struct, or one that
would not end in 32 bits, is left out. -/

namespace ShaderPipeline.Memory

open Schema

/-- Where a member lies. -/
structure Placement where
  name : String
  offset : Nat
  /-- Bytes from one element to the next. -/
  stride : Nat
  length : Nat
  size : Nat
  /-- Bytes of each element that hold no value. -/
  padding : Nat
  deriving DecidableEq, Repr

/-- Where the members of a struct or of a buffer block lie. -/
structure Placements where
  name : String
  rule : Rule
  members : List Placement
  /-- Size with the padding at the end. -/
  size : Nat
  deriving DecidableEq, Repr

namespace Placements

def member? (placements : Placements) (name : String) : Option Placement :=
  placements.members.find? (·.name == name)

def offsets (placements : Placements) : List Nat := placements.members.map Placement.offset

end Placements

/-- The size of an element with and without padding. -/
structure ElementSize where
  padded : Nat
  tight : Nat
  deriving DecidableEq, Repr

/-- How the sizes of struct members are found. -/
abbrev Nesting := String → Measured (Option ElementSize)

/-- Members that are left out. -/
inductive Problem where
  | unknownStruct (outer name struct : String)
  | tooLarge (outer name : String) (length size : Nat)

def Problem.message : Problem → String
  | .unknownStruct outer name struct =>
    s!"{outer}.{name}: unknown struct '{struct}', property left out of the layout"
  | .tooLarge outer name length size =>
    s!"{outer}.{name}: {length} elements of {size} bytes overflow the layout, property left out"

/-- The element size of a member, if its type is known. -/
def elementSize (rule : Rule) (nesting : Nesting) : PropertyType → Measured (Option ElementSize)
  | .value type => return some ⟨rule.valueSize type, type.size⟩
  | .struct name => nesting name

/-- Whether `size` more bytes, rounded up, stay in 32 bits. -/
def fits (offset size : Nat) : Bool :=
  size ≤ wordMax && Rule.roundUp (offset + size) ≤ wordMax

/-- Places members from `offset` on, and gives the offset after them. -/
def placeFrom (outer : String) (rule : Rule) (nesting : Nesting) (offset : Nat) :
    List Property → Measured (List Placement × Nat)
  | [] => return ([], offset)
  | property :: rest => do
    match ← elementSize rule nesting property.type with
    | none =>
      Measured.warn (Problem.unknownStruct outer property.name property.type.name).message
      placeFrom outer rule nesting offset rest
    | some element =>
      let size := element.padded * property.length
      if fits offset size then
        if element.padded < element.tight then throw .subtract
        let (members, finish) ← placeFrom outer rule nesting (offset + size) rest
        return (⟨property.name, offset, element.padded, property.length, size,
          element.padded - element.tight⟩ :: members, finish)
      else
        Measured.warn (Problem.tooLarge outer property.name property.length element.padded).message
        placeFrom outer rule nesting offset rest

/-- Places the members of a struct or of a buffer block. -/
def place (name : String) (properties : List Property) (rule : Rule) (nesting : Nesting) :
    Measured Placements := do
  let (members, finish) ← placeFrom name rule nesting 0 properties
  match rule.structSize finish with
  | .ok size => return ⟨name, rule, members, size⟩
  | .error overflow => throw overflow

/-- Finds and places a struct among `structs`, the latest first. Its members may be of the
structs after it in the list, which were declared before it. -/
def placeIn (rule : Rule) : (structs : List Struct) → String → Option (Struct × Measured Placements)
  | [], _ => none
  | struct :: earlier, name =>
    if struct.name = name then
      some (struct, place struct.name struct.properties rule fun nested =>
        match placeIn rule earlier nested with
        | none => return none
        | some (found, placements) => return some ⟨(← placements).size, found.size⟩)
    else placeIn rule earlier name

/-- Places the members of the struct of a name. -/
def placeStruct (types : Types) (rule : Rule) (name : String) : Option (Measured Placements) :=
  (placeIn rule types.structs.reverse name).map Prod.snd

/-- The element sizes of all structs. -/
def nesting (types : Types) (rule : Rule) : Nesting := fun name =>
  match placeIn rule types.structs.reverse name with
  | none => return none
  | some (found, placements) => return some ⟨(← placements).size, found.size⟩

end ShaderPipeline.Memory
