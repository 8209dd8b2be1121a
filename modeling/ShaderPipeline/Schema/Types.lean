import ShaderPipeline.Schema.Value
import ShaderPipeline.Text.Lines
import ShaderPipeline.Word

/-! Declared struct types. A struct's members are of built-in types or of structs declared
before it. -/

namespace ShaderPipeline.Schema

/-- The type of a member of a struct or of a buffer block. -/
inductive PropertyType where
  | value (type : ValueType)
  | struct (name : String)
  deriving DecidableEq, Repr

namespace PropertyType

def name : PropertyType → String
  | .value type => type.name
  | .struct name => name

/-- The built-in type of a name, or else the struct of that name. -/
def ofName (name : String) : PropertyType :=
  match ValueType.ofName? name with
  | some type => .value type
  | none => .struct name

end PropertyType

structure Property where
  name : String
  type : PropertyType
  /-- One for a member that is not an array. -/
  length : Nat
  deriving DecidableEq, Repr

/-- The shader declaration of a member. -/
def Property.declaration (property : Property) : Text :=
  let array := if property.length > 1 then s!"[{property.length}]" else ""
  s!"{property.type.name} {property.name}{array};".toList

/-- The lines of a block of members under a header line. -/
def blockLines (header : Text) (properties : List Property) : List Text :=
  header :: properties.map (fun property => "    ".toList ++ property.declaration) ++
    ["\x7d;".toList]

structure Struct where
  name : String
  properties : List Property
  /-- Size in bytes without padding. -/
  size : Nat
  deriving DecidableEq, Repr

namespace Struct

def empty (name : String) : Struct := ⟨name, [], 0⟩

def property? (struct : Struct) (name : String) : Option Property :=
  struct.properties.find? (·.name == name)

/-- Appends a member whose element takes `elementSize` bytes, unless the size would leave
32 bits. -/
def push? (struct : Struct) (property : Property) (elementSize : Nat) : Option Struct :=
  let size := struct.size + elementSize * property.length
  if size ≤ wordMax then
    some { struct with properties := struct.properties ++ [property], size }
  else none

def declarationLines (struct : Struct) : List Text :=
  blockLines s!"struct {struct.name} \x7b".toList struct.properties

end Struct

/-- Structs in the order of their declaration. -/
structure Types where
  structs : List Struct
  deriving DecidableEq, Repr

namespace Types

def empty : Types := ⟨[]⟩

instance : EmptyCollection Types := ⟨empty⟩

def find? (types : Types) (name : String) : Option Struct :=
  types.structs.find? (·.name == name)

def contains (types : Types) (name : String) : Bool := (types.find? name).isSome

/-- Appends a struct, unless its name is taken. -/
def add? (types : Types) (struct : Struct) : Option Types :=
  if types.contains struct.name then none else some ⟨types.structs ++ [struct]⟩

def size (types : Types) : Nat := types.structs.length

def isEmpty (types : Types) : Bool := types.structs.isEmpty

/-- The type of a name and its size without padding. Built-in names come first. -/
def resolve? (types : Types) (name : String) : Option (PropertyType × Nat) :=
  match ValueType.ofName? name with
  | some type => some (.value type, type.size)
  | none => (types.find? name).map fun struct => (.struct struct.name, struct.size)

/-- The shader declarations of all structs. -/
def declarations (types : Types) : Text :=
  Text.joinLines (types.structs.flatMap Struct.declarationLines)

end Types

end ShaderPipeline.Schema
