import ShaderPipeline.Text.Blank

/-! Storage types of vertex attributes, and the type words of a layout section. -/

namespace ShaderPipeline.Vertex

/-- How one component of an attribute is stored. -/
inductive Scalar where
  | byte
  | short
  | int
  | float
  deriving DecidableEq, Repr

namespace Scalar

def name : Scalar → String
  | .byte => "byte"
  | .short => "short"
  | .int => "int"
  | .float => "float"

def ofName? : String → Option Scalar
  | "byte" => some .byte
  | "short" => some .short
  | "int" => some .int
  | "float" => some .float
  | _ => none

@[simp] theorem ofName?_name (scalar : Scalar) : ofName? scalar.name = some scalar := by
  cases scalar <;> rfl

/-- Size in bytes. -/
def size : Scalar → Nat
  | .byte => 1
  | .short => 2
  | .int | .float => 4

/-- Width in bits. -/
def bits (scalar : Scalar) : Nat := scalar.size * 8

def isInteger : Scalar → Bool
  | .float => false
  | _ => true

end Scalar

/-- A scalar, or a vector of two to four of them. -/
structure BasicType where
  scalar : Scalar
  count : Nat
  deriving DecidableEq, Repr

namespace BasicType

/-- Reads `byte`, `short`, `int`, `float`, and `vec` or `ivec` with a digit from two to four. -/
def ofName? (name : String) : Option BasicType :=
  match Scalar.ofName? name with
  | some scalar => some ⟨scalar, 1⟩
  | none =>
    match name with
    | "vec2" => some ⟨.float, 2⟩
    | "vec3" => some ⟨.float, 3⟩
    | "vec4" => some ⟨.float, 4⟩
    | "ivec2" => some ⟨.int, 2⟩
    | "ivec3" => some ⟨.int, 3⟩
    | "ivec4" => some ⟨.int, 4⟩
    | _ => none

/-- Packed fields hold integers only. -/
def isPackable (basic : BasicType) : Bool := basic.scalar.isInteger

end BasicType

/-- The shader's type for a number of integers or floats. -/
def shaderType (integer : Bool) (count : Nat) : String :=
  if count = 1 then if integer then "int" else "float"
  else (if integer then "ivec" else "vec") ++ toString count

end ShaderPipeline.Vertex
