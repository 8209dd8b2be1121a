import ShaderPipeline.Log
import ShaderPipeline.State.Basic
import ShaderPipeline.Text.Lines
import ShaderPipeline.Text.Numeral

/-! The state section: one setting a line, of which the last that can be read counts. A line that
cannot be read is warned about and changes nothing. -/

namespace ShaderPipeline

/-- A field of the render state. -/
inductive StateField where
  | cull
  | blend
  | colorMask
  | depthWrite
  | depth
  | stencilMask
  | stencil
  deriving DecidableEq, Repr

/-- Reads a field's keyword in letters of any case. -/
def StateField.ofKeyword? (keyword : String) : Option StateField :=
  match keyword.toLower with
  | "cull" => some .cull
  | "blend" => some .blend
  | "colormask" => some .colorMask
  | "depthmask" => some .depthWrite
  | "depth" => some .depth
  | "stencilmask" => some .stencilMask
  | "stencil" => some .stencil
  | _ => none

/-- A value for a field. -/
inductive Setting where
  | cull (mode : CullMode)
  | blend (blend : Blend)
  | colorMask (mask : ColorMask)
  | depthWrite (write : Bool)
  | depth (test : DepthTest)
  | stencilMask (mask : Nat)
  | stencil (test : StencilTest)
  deriving DecidableEq, Repr

namespace Setting

def field : Setting → StateField
  | .cull _ => .cull
  | .blend _ => .blend
  | .colorMask _ => .colorMask
  | .depthWrite _ => .depthWrite
  | .depth _ => .depth
  | .stencilMask _ => .stencilMask
  | .stencil _ => .stencil

/-- The argument, if there is just one. -/
def single? : List Text → Option Text
  | [argument] => some argument
  | _ => none

def isOff (word : Text) : Bool := word.string.toLower == "off"

def switch? (word : Text) : Option Bool :=
  match word.string.toLower with
  | "on" | "true" | "1" => some true
  | "off" | "false" | "0" => some false
  | _ => none

/-- `off`, or two factors and an operation, which is addition if it is not given. -/
def blend? : List Text → Option Blend
  | [word] => if isOff word then some .disabled else none
  | [src, dst] => do
    some (.enabled (← BlendFactor.ofWord? src.string) (← BlendFactor.ofWord? dst.string) .add)
  | [src, dst, op] => do
    some (.enabled (← BlendFactor.ofWord? src.string) (← BlendFactor.ofWord? dst.string)
      (← BlendOp.ofWord? op.string))
  | _ => none

/-- `off`, or a comparison. -/
def depth? (word : Text) : Option DepthTest :=
  if isOff word then some .disabled else (CompareFunc.ofWord? word.string).map .enabled

/-- `off`, or a comparison, a decimal reference value, a hexadecimal mask and three operations. -/
def stencil? : List Text → Option StencilTest
  | [word] => if isOff word then some .disabled else none
  | [func, reference, mask, fail, depthFail, pass] => do
    some (.enabled (← CompareFunc.ofWord? func.string) (← Text.decimal? reference)
      (← Text.hexadecimal? mask) (← StencilOp.ofWord? fail.string)
      (← StencilOp.ofWord? depthFail.string) (← StencilOp.ofWord? pass.string))
  | _ => none

/-- Reads the arguments of a field. -/
def ofArguments? (arguments : List Text) : StateField → Option Setting
  | .cull => do some (.cull (← CullMode.ofWord? (← single? arguments).string))
  | .blend => (blend? arguments).map .blend
  | .colorMask => do
    some (.colorMask (← ColorMask.ofBits? (← Text.hexadecimal? (← single? arguments))))
  | .depthWrite => do some (.depthWrite (← switch? (← single? arguments)))
  | .depth => do some (.depth (← depth? (← single? arguments)))
  | .stencilMask => do some (.stencilMask (← Text.hexadecimal? (← single? arguments)))
  | .stencil => (stencil? arguments).map .stencil

end Setting

namespace State

/-- Sets one field. -/
def apply (state : State) : Setting → State
  | .cull mode => { state with cull := some mode }
  | .blend blend => { state with blend := some blend }
  | .colorMask mask => { state with colorMask := some mask }
  | .depthWrite write => { state with depthWrite := some write }
  | .depth test => { state with depth := some test }
  | .stencilMask mask => { state with stencilMask := some mask }
  | .stencil test => { state with stencil := some test }

/-- What a line of a state section is. -/
inductive Line where
  | blank
  | unknown (keyword : Text)
  | malformed (keyword : Text)
  | setting (value : Setting)
  deriving DecidableEq, Repr

def Line.ofText (text : Text) : Line :=
  match Text.words text with
  | [] => .blank
  | keyword :: arguments =>
    match StateField.ofKeyword? keyword.string with
    | none => .unknown keyword
    | some field =>
      match Setting.ofArguments? arguments field with
      | none => .malformed keyword
      | some value => .setting value

/-- Carries out one line. -/
def applyLine (state : State) (number : Nat) (text : Text) : Logged State :=
  match Line.ofText text with
  | .blank => return state
  | .setting value => return state.apply value
  | .unknown keyword => do
    Logged.warn s!"state:{number}: unknown setting '{keyword.string}'"
    return state
  | .malformed keyword => do
    Logged.warn (s!"state:{number}: malformed '{keyword.string}' setting " ++
      s!"'{(Text.trim text).string}'")
    return state

/-- Carries out lines, the first of which has the given number. -/
def applyLines (state : State) : (number : Nat) → List Text → Logged State
  | _, [] => return state
  | number, text :: rest => do (← state.applyLine number text).applyLines (number + 1) rest

/-- Reads a state section. -/
def ofSection (text : Text) : Logged State := default.applyLines 1 (Text.lines text)

end State

end ShaderPipeline
