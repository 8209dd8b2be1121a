import ShaderPipeline.Log
import ShaderPipeline.Vertex.Layout

/-! Vertex layouts as one interleaved vertex buffer of the GPU interface, with shader locations in
the order of attributes. -/

namespace ShaderPipeline.Gpu

/-- Formats of the GPU interface: signed integers, signed fractions and floats. -/
inductive VertexFormat where
  | sint8
  | sint8x2
  | sint8x4
  | snorm8
  | snorm8x2
  | snorm8x4
  | sint16
  | sint16x2
  | sint16x4
  | snorm16
  | snorm16x2
  | snorm16x4
  | float32
  | float32x2
  | float32x3
  | float32x4
  | sint32
  | sint32x2
  | sint32x3
  | sint32x4
  deriving DecidableEq, Repr

/-- Size in bytes. -/
def VertexFormat.size : VertexFormat → Nat
  | .sint8 | .snorm8 => 1
  | .sint8x2 | .snorm8x2 | .sint16 | .snorm16 => 2
  | .sint8x4 | .snorm8x4 | .sint16x2 | .snorm16x2 | .float32 | .sint32 => 4
  | .sint16x4 | .snorm16x4 | .float32x2 | .sint32x2 => 8
  | .float32x3 | .sint32x3 => 12
  | .float32x4 | .sint32x4 => 16

/-- The format of an attribute, if the interface has one. It has none for three small integers
and for fractions of 32-bit integers. -/
def vertexFormat? (format : Vertex.Format) : Option VertexFormat :=
  match format.scalar, format.normalized, format.count with
  | .float, _, 1 => some .float32
  | .float, _, 2 => some .float32x2
  | .float, _, 3 => some .float32x3
  | .float, _, 4 => some .float32x4
  | .int, false, 1 => some .sint32
  | .int, false, 2 => some .sint32x2
  | .int, false, 3 => some .sint32x3
  | .int, false, 4 => some .sint32x4
  | .short, false, 1 => some .sint16
  | .short, false, 2 => some .sint16x2
  | .short, false, 4 => some .sint16x4
  | .short, true, 1 => some .snorm16
  | .short, true, 2 => some .snorm16x2
  | .short, true, 4 => some .snorm16x4
  | .byte, false, 1 => some .sint8
  | .byte, false, 2 => some .sint8x2
  | .byte, false, 4 => some .sint8x4
  | .byte, true, 1 => some .snorm8
  | .byte, true, 2 => some .snorm8x2
  | .byte, true, 4 => some .snorm8x4
  | _, _, _ => none

/-- How often the buffer advances: with each vertex or with each instance. -/
inductive StepMode where
  | perVertex
  | perInstance
  deriving DecidableEq, Repr

structure VertexAttribute where
  format : VertexFormat
  offset : Nat
  location : Nat
  deriving DecidableEq, Repr

structure VertexBuffer where
  stride : Nat
  step : StepMode
  attributes : List VertexAttribute
  deriving DecidableEq, Repr

def noFormatMessage (input : Vertex.Attribute) : String :=
  let normalized := if input.format.normalized then ", normalized" else ""
  s!"Attribute '{input.name}' ({input.format.scalar.name} x{input.format.count}{normalized}) " ++
    "has no wgpu vertex format"

/-- Describes attributes, the first at the given location. -/
def describe : (location : Nat) → List Vertex.Attribute → Logged (Option (List VertexAttribute))
  | _, [] => return some []
  | location, input :: rest =>
    match vertexFormat? input.format with
    | none => do
      Logged.warn (noFormatMessage input)
      return none
    | some format =>
      return (← describe (location + 1) rest).map (⟨format, input.offset, location⟩ :: ·)

/-- The buffer of a layout, if every attribute has a format. -/
def VertexBuffer.ofLayout? (layout : Vertex.Layout) (step : StepMode) :
    Logged (Option VertexBuffer) := do
  return (← describe 0 layout.attributes).map fun attributes => ⟨layout.stride, step, attributes⟩

end ShaderPipeline.Gpu
