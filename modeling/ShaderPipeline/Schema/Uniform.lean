import ShaderPipeline.Memory.Placement

/-! Uniforms of a program: values, structs, samplers, images and buffer blocks. -/

namespace ShaderPipeline.Schema

inductive TextureShape where
  | d2
  | d3
  | cube
  deriving DecidableEq, Repr

namespace TextureShape

/-- What stands after `sampler` and `image` in the names of texture types. -/
def typeEnding : TextureShape → String
  | .d2 => "2D"
  | .d3 => "3D"
  | .cube => "Cube"

def ofSamplerName? : String → Option TextureShape
  | "sampler2D" => some .d2
  | "sampler3D" => some .d3
  | "samplerCube" => some .cube
  | _ => none

/-- There are no cube images. -/
def ofImageName? : String → Option TextureShape
  | "image2D" => some .d2
  | "image3D" => some .d3
  | _ => none

end TextureShape

/-- Storage formats of images. -/
inductive PixelFormat where
  | rgba32f
  | rgba16f
  | rg32f
  | rg16f
  | r32f
  | r16f
  | rgba8
  | rgba8Snorm
  | rg8
  | r8
  | rgba32i
  | rgba16i
  | rgba8i
  | r32i
  | rgba32ui
  | rgba16ui
  | rgba8ui
  | r32ui
  deriving DecidableEq, Repr

namespace PixelFormat

def all : List PixelFormat :=
  [.rgba32f, .rgba16f, .rg32f, .rg16f, .r32f, .r16f, .rgba8, .rgba8Snorm, .rg8, .r8, .rgba32i,
    .rgba16i, .rgba8i, .r32i, .rgba32ui, .rgba16ui, .rgba8ui, .r32ui]

/-- The word for a format in shader declarations. -/
def qualifier : PixelFormat → String
  | .rgba32f => "rgba32f"
  | .rgba16f => "rgba16f"
  | .rg32f => "rg32f"
  | .rg16f => "rg16f"
  | .r32f => "r32f"
  | .r16f => "r16f"
  | .rgba8 => "rgba8"
  | .rgba8Snorm => "rgba8_snorm"
  | .rg8 => "rg8"
  | .r8 => "r8"
  | .rgba32i => "rgba32i"
  | .rgba16i => "rgba16i"
  | .rgba8i => "rgba8i"
  | .r32i => "r32i"
  | .rgba32ui => "rgba32ui"
  | .rgba16ui => "rgba16ui"
  | .rgba8ui => "rgba8ui"
  | .r32ui => "r32ui"

/-- Reads a format's word in letters of any case. -/
def ofQualifier? (word : String) : Option PixelFormat := all.find? (·.qualifier == word.toLower)

end PixelFormat

/-- Members that are backed by a buffer. -/
structure BufferBlock where
  name : String
  properties : List Property
  deriving DecidableEq, Repr

namespace BufferBlock

def property? (block : BufferBlock) (name : String) : Option Property :=
  block.properties.find? (·.name == name)

/-- Where the members lie in the buffer. -/
def place (block : BufferBlock) (rule : Memory.Rule) (types : Types) :
    Measured Memory.Placements :=
  Memory.place block.name block.properties rule (Memory.nesting types rule)

/-- The shader's word for the kind of buffer. Only storage buffers may be `std430`. -/
def storageWord : Memory.Rule → String
  | .std430 => "buffer"
  | .std140 | .packed => "uniform"

def declarationLines (block : BufferBlock) (rule : Memory.Rule) : List Text :=
  blockLines s!"layout({rule.name}) {storageWord rule} {block.name} \x7b".toList block.properties

end BufferBlock

/-- What a uniform binds. -/
inductive UniformKind where
  | value (type : ValueType)
  | struct (name : String)
  | sampler (shape : TextureShape)
  | image (shape : TextureShape) (format : Option PixelFormat)
  | buffer (block : BufferBlock)
  deriving DecidableEq, Repr

structure Uniform where
  name : String
  kind : UniformKind
  /-- One for a uniform that is not an array. -/
  length : Nat
  deriving DecidableEq, Repr

namespace Uniform

/-- A buffer block is a uniform of the block's name. -/
def ofBuffer (block : BufferBlock) : Uniform := ⟨block.name, .buffer block, 1⟩

/-- The lines of a uniform's shader declaration. -/
def declarationLines (uniform : Uniform) (rule : Memory.Rule) : List Text :=
  let array := if uniform.length > 1 then s!"[{uniform.length}]" else ""
  let named (type : String) : List Text := [s!"uniform {type} {uniform.name}{array};".toList]
  match uniform.kind with
  | .value type => named type.name
  | .struct name => named name
  | .sampler shape => named ("sampler" ++ shape.typeEnding)
  | .image shape none => named ("image" ++ shape.typeEnding)
  | .image shape (some format) =>
    (named ("image" ++ shape.typeEnding)).map (s!"layout({format.qualifier}) ".toList ++ ·)
  | .buffer block => block.declarationLines rule

end Uniform

/-- Uniforms in the order of their declaration. -/
structure Uniforms where
  uniforms : List Uniform
  deriving DecidableEq, Repr

namespace Uniforms

def empty : Uniforms := ⟨[]⟩

instance : EmptyCollection Uniforms := ⟨empty⟩

def find? (uniforms : Uniforms) (name : String) : Option Uniform :=
  uniforms.uniforms.find? (·.name == name)

/-- Appends a uniform, unless its name is taken. -/
def add? (uniforms : Uniforms) (uniform : Uniform) : Option Uniforms :=
  if (uniforms.find? uniform.name).isSome then none
  else some ⟨uniforms.uniforms ++ [uniform]⟩

def size (uniforms : Uniforms) : Nat := uniforms.uniforms.length

def isEmpty (uniforms : Uniforms) : Bool := uniforms.uniforms.isEmpty

def names (uniforms : Uniforms) : List String := uniforms.uniforms.map Uniform.name

def buffers (uniforms : Uniforms) : List BufferBlock :=
  uniforms.uniforms.filterMap fun uniform =>
    match uniform.kind with
    | .buffer block => some block
    | _ => none

/-- The memory that the buffer of a name needs. -/
def bufferSize? (uniforms : Uniforms) (name : String) (rule : Memory.Rule) (types : Types) :
    Option (Measured Nat) :=
  (uniforms.buffers.find? (·.name == name)).map fun block =>
    return (← block.place rule types).size

/-- The shader declarations of all uniforms. -/
def declarations (uniforms : Uniforms) (rule : Memory.Rule) : Text :=
  Text.joinLines (uniforms.uniforms.flatMap (·.declarationLines rule))

end Uniforms

end ShaderPipeline.Schema
