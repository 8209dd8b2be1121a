import ShaderPipeline.Vertex.Packed

/-! Vertex layouts: the components that a shader sees, in order of declaration, and the
attributes that store them. -/

namespace ShaderPipeline.Vertex

/-- How an attribute is stored. -/
structure Format where
  scalar : Scalar
  count : Nat
  /-- Integers are read as fractions of their range. -/
  normalized : Bool
  deriving DecidableEq, Repr

namespace Format

/-- The shader receives integers rather than floats. -/
def asInteger (format : Format) : Bool := !format.normalized && format.scalar.isInteger

/-- Size in bytes. -/
def size (format : Format) : Nat := format.scalar.size * format.count

/-- One 32-bit integer, the storage of a packed group. -/
def word : Format := ⟨.int, 1, false⟩

end Format

/-- An attribute at a byte offset in the vertex. -/
structure Attribute where
  name : String
  format : Format
  offset : Nat
  /-- The fields in the bits of a packed attribute. -/
  packed : Option PackedGroup
  deriving DecidableEq, Repr

namespace Attribute

def size (self : Attribute) : Nat := self.format.size

def shaderType (self : Attribute) : String :=
  Vertex.shaderType self.format.asInteger self.format.count

def isPacked (self : Attribute) : Bool := self.packed.isSome

end Attribute

/-- A component is a whole attribute or a field of a packed one. -/
inductive Storage where
  | plain
  | packed (field : PackedField)
  deriving DecidableEq, Repr

structure Component where
  name : String
  /-- Position in the order of declaration. -/
  index : Nat
  /-- Position of the attribute that stores it. -/
  attributeIndex : Nat
  storage : Storage
  deriving DecidableEq, Repr

structure Layout where
  components : List Component
  attributes : List Attribute
  /-- Bytes of one vertex. -/
  stride : Nat
  deriving DecidableEq, Repr

namespace Layout

def isEmpty (layout : Layout) : Bool := layout.attributes.isEmpty

def offsets (layout : Layout) : List Nat := layout.attributes.map Attribute.offset

def attributeOffset? (layout : Layout) (index : Nat) : Option Nat :=
  (layout.attributes[index]?).map Attribute.offset

def component? (layout : Layout) (name : String) : Option Component :=
  layout.components.find? (·.name == name)

def attribute? (layout : Layout) (name : String) : Option Attribute :=
  layout.attributes.find? (·.name == name)

/-- The attribute that stores the component of a name. -/
def attributeFor? (layout : Layout) (name : String) : Option Attribute := do
  let component ← layout.component? name
  layout.attributes[component.attributeIndex]?

def packedGroups (layout : Layout) : List PackedGroup :=
  layout.attributes.filterMap Attribute.packed

/-- Shader declarations of the attributes. -/
def inputDeclarations (layout : Layout) : String :=
  String.intercalate "\n"
    (layout.attributes.map fun input => s!"in {input.shaderType} {input.name};")

/-- Shader statements that read the packed components. -/
def unpackStatements (layout : Layout) : String :=
  String.intercalate "\n" (layout.packedGroups.flatMap PackedGroup.unpackStatements)

end Layout

end ShaderPipeline.Vertex
