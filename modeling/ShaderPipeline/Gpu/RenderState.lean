import ShaderPipeline.Log
import ShaderPipeline.State.Basic

/-! Render state in the terms of the GPU interface. Comparisons and blend operations are the
same there. -/

namespace ShaderPipeline.Gpu

inductive BlendFactor where
  | zero
  | one
  | src
  | oneMinusSrc
  | srcAlpha
  | oneMinusSrcAlpha
  | dst
  | oneMinusDst
  | dstAlpha
  | oneMinusDstAlpha
  | srcAlphaSaturated
  | constant
  | oneMinusConstant
  deriving DecidableEq, Repr

def BlendFactor.ofFactor : ShaderPipeline.BlendFactor → BlendFactor
  | .zero => .zero
  | .one => .one
  | .srcColor => .src
  | .oneMinusSrcColor => .oneMinusSrc
  | .dstColor => .dst
  | .oneMinusDstColor => .oneMinusDst
  | .srcAlpha => .srcAlpha
  | .oneMinusSrcAlpha => .oneMinusSrcAlpha
  | .dstAlpha => .dstAlpha
  | .oneMinusDstAlpha => .oneMinusDstAlpha
  | .constantColor => .constant
  | .oneMinusConstantColor => .oneMinusConstant
  | .srcAlphaSaturate => .srcAlphaSaturated

structure BlendComponent where
  src : BlendFactor
  dst : BlendFactor
  op : BlendOp
  deriving DecidableEq, Repr

structure BlendState where
  color : BlendComponent
  alpha : BlendComponent
  deriving DecidableEq, Repr

/-- Colors and alpha are blended alike. -/
def BlendState.ofBlend? : Blend → Option BlendState
  | .disabled => none
  | .enabled src dst op =>
    let component : BlendComponent := ⟨.ofFactor src, .ofFactor dst, op⟩
    some ⟨component, component⟩

inductive StencilOperation where
  | keep
  | zero
  | replace
  | invert
  | incrementClamp
  | decrementClamp
  | incrementWrap
  | decrementWrap
  deriving DecidableEq, Repr

def StencilOperation.ofOp : StencilOp → StencilOperation
  | .keep => .keep
  | .zero => .zero
  | .replace => .replace
  | .increment => .incrementClamp
  | .incrementWrap => .incrementWrap
  | .decrement => .decrementClamp
  | .decrementWrap => .decrementWrap
  | .invert => .invert

inductive Face where
  | front
  | back
  deriving DecidableEq, Repr

/-- The face to cull. The interface culls at most one. -/
def Face.ofCullMode? : CullMode → Logged (Option Face)
  | .none => return none
  | .front => return some .front
  | .back => return some .back
  | .frontAndBack => do
    Logged.warn "wgpu cannot cull both faces, culling disabled"
    return none

/-- The comparison and the operations of a stencil test. -/
structure StencilFace where
  compare : CompareFunc
  fail : StencilOperation
  depthFail : StencilOperation
  pass : StencilOperation
  deriving DecidableEq, Repr

/-- The face of both sides. -/
def StencilFace.ofTest? : StencilTest → Option StencilFace
  | .disabled => none
  | .enabled func _ _ fail depthFail pass =>
    some ⟨func, .ofOp fail, .ofOp depthFail, .ofOp pass⟩

/-- What is set for the interface. Disabled tests are as good as none. -/
structure RenderState where
  cull : Option Face
  blend : Option BlendState
  colorWrites : Option Nat
  depth : Option CompareFunc
  stencil : Option StencilFace
  deriving DecidableEq, Repr

def compareOf? : DepthTest → Option CompareFunc
  | .disabled => none
  | .enabled func => some func

def RenderState.ofState (state : State) : Logged RenderState := do
  let face? ← match state.cull with
    | none => pure none
    | some mode => Face.ofCullMode? mode
  return ⟨face?, state.blend.bind BlendState.ofBlend?, state.colorMask.map ColorMask.bits,
    state.depth.bind compareOf?, state.stencil.bind StencilFace.ofTest?⟩

end ShaderPipeline.Gpu
