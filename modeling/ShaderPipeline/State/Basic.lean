/-! Render state: what a pipeline sets beside its shaders. A field that is not set leaves the
backend's default. -/

namespace ShaderPipeline

/-- Color channels that a pipeline writes. -/
structure ColorMask where
  red : Bool
  green : Bool
  blue : Bool
  alpha : Bool
  deriving DecidableEq, Repr

namespace ColorMask

/-- Reads a mask from its bits, red lowest. There are four. -/
def ofBits? (bits : Nat) : Option ColorMask :=
  if bits < 16 then
    some ⟨bits.testBit 0, bits.testBit 1, bits.testBit 2, bits.testBit 3⟩
  else none

def bits (mask : ColorMask) : Nat :=
  mask.red.toNat + 2 * mask.green.toNat + 4 * mask.blue.toNat + 8 * mask.alpha.toNat

theorem ofBits?_bits (mask : ColorMask) : ofBits? mask.bits = some mask := by
  rcases mask with ⟨_ | _, _ | _, _ | _, _ | _⟩ <;> rfl

end ColorMask

inductive CullMode where
  | none
  | front
  | back
  | frontAndBack
  deriving DecidableEq, Repr

/-- Reads a mode's word in letters of any case. -/
def CullMode.ofWord? (word : String) : Option CullMode :=
  match word.toLower with
  | "none" => some .none
  | "front" => some .front
  | "back" => some .back
  | "front_and_back" => some .frontAndBack
  | _ => Option.none

inductive BlendFactor where
  | zero
  | one
  | srcColor
  | oneMinusSrcColor
  | dstColor
  | oneMinusDstColor
  | srcAlpha
  | oneMinusSrcAlpha
  | dstAlpha
  | oneMinusDstAlpha
  | constantColor
  | oneMinusConstantColor
  | srcAlphaSaturate
  deriving DecidableEq, Repr

/-- Reads a factor's word in letters of any case. -/
def BlendFactor.ofWord? (word : String) : Option BlendFactor :=
  match word.toLower with
  | "zero" => some .zero
  | "one" => some .one
  | "src_color" => some .srcColor
  | "one_minus_src_color" => some .oneMinusSrcColor
  | "dst_color" => some .dstColor
  | "one_minus_dst_color" => some .oneMinusDstColor
  | "src_alpha" => some .srcAlpha
  | "one_minus_src_alpha" => some .oneMinusSrcAlpha
  | "dst_alpha" => some .dstAlpha
  | "one_minus_dst_alpha" => some .oneMinusDstAlpha
  | "constant_color" => some .constantColor
  | "one_minus_constant_color" => some .oneMinusConstantColor
  | "src_alpha_saturate" => some .srcAlphaSaturate
  | _ => none

inductive BlendOp where
  | add
  | subtract
  | reverseSubtract
  | min
  | max
  deriving DecidableEq, Repr

/-- Reads an operation's word in letters of any case. -/
def BlendOp.ofWord? (word : String) : Option BlendOp :=
  match word.toLower with
  | "add" => some .add
  | "subtract" => some .subtract
  | "reverse_subtract" => some .reverseSubtract
  | "min" => some .min
  | "max" => some .max
  | _ => none

inductive Blend where
  | disabled
  | enabled (src dst : BlendFactor) (op : BlendOp)
  deriving DecidableEq, Repr

inductive CompareFunc where
  | never
  | less
  | equal
  | lessEqual
  | greater
  | notEqual
  | greaterEqual
  | always
  deriving DecidableEq, Repr

/-- Reads a comparison's word in letters of any case. -/
def CompareFunc.ofWord? (word : String) : Option CompareFunc :=
  match word.toLower with
  | "never" => some .never
  | "less" => some .less
  | "equal" => some .equal
  | "lequal" => some .lessEqual
  | "greater" => some .greater
  | "notequal" => some .notEqual
  | "gequal" => some .greaterEqual
  | "always" => some .always
  | _ => none

inductive DepthTest where
  | disabled
  | enabled (func : CompareFunc)
  deriving DecidableEq, Repr

inductive StencilOp where
  | keep
  | zero
  | replace
  | increment
  | incrementWrap
  | decrement
  | decrementWrap
  | invert
  deriving DecidableEq, Repr

/-- Reads an operation's word in letters of any case. -/
def StencilOp.ofWord? (word : String) : Option StencilOp :=
  match word.toLower with
  | "keep" => some .keep
  | "zero" => some .zero
  | "replace" => some .replace
  | "incr" => some .increment
  | "incr_wrap" => some .incrementWrap
  | "decr" => some .decrement
  | "decr_wrap" => some .decrementWrap
  | "invert" => some .invert
  | _ => none

inductive StencilTest where
  | disabled
  | enabled (func : CompareFunc) (reference mask : Nat) (fail depthFail pass : StencilOp)
  deriving DecidableEq, Repr

structure State where
  cull : Option CullMode
  blend : Option Blend
  colorMask : Option ColorMask
  depthWrite : Option Bool
  depth : Option DepthTest
  stencilMask : Option Nat
  stencil : Option StencilTest
  deriving DecidableEq, Repr

namespace State

/-- Nothing is set. -/
def default : State := ⟨none, none, none, none, none, none, none⟩

instance : Inhabited State := ⟨default⟩

def isDefault (state : State) : Bool := state = default

end State

end ShaderPipeline
