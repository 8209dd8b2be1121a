import ShaderPipeline.Program.Basic
import ShaderPipeline.State.Basic
import ShaderPipeline.Vertex.Layout

/-! Compiled pipelines, and what a backend sees of them. -/

namespace ShaderPipeline

/-- What a compilation needs beside the document and the registry. -/
structure CompileOptions where
  rule : Memory.Rule
  defines : FeatureSet
  /-- The library that is included before every stage. -/
  library? : Option String
  deriving DecidableEq, Repr

namespace CompileOptions

def default : CompileOptions := ⟨.std140, .empty, some "stdlib"⟩

instance : Inhabited CompileOptions := ⟨default⟩

def withDefine (options : CompileOptions) (name value : String) : CompileOptions :=
  { options with defines := options.defines.set name value }

end CompileOptions

structure Pipeline where
  layout : Option Vertex.Layout
  program : Program
  state : State
  /-- The preprocessed stages, in the order of the program's. -/
  stages : List Stage
  rule : Memory.Rule
  deriving DecidableEq, Repr

namespace Pipeline

/-- The preprocessed text of a stage. -/
def stage? (pipeline : Pipeline) (kind : StageKind) : Option Text :=
  (pipeline.stages.find? (·.kind = kind)).map Stage.source

def isCompute (pipeline : Pipeline) : Bool := pipeline.program.isCompute

/-- The memory that each buffer block needs, in the order of their declaration. -/
def bufferSizes (pipeline : Pipeline) : Measured (List (String × Nat)) :=
  pipeline.program.uniforms.buffers.mapM fun block => do
    return (block.name, (← block.place pipeline.rule pipeline.program.types).size)

/-- The shader declarations of the program's structs and uniforms. -/
def declarations (pipeline : Pipeline) : Text :=
  Stage.joinParts pipeline.program.types.declarations
    (pipeline.program.uniforms.declarations pipeline.rule)

end Pipeline

/-- A backend makes pipeline objects of its own, or refuses with a reason. -/
abbrev Backend (α : Type) := Pipeline → Except String α

/-- Hands a pipeline to a backend. -/
def Pipeline.build (pipeline : Pipeline) (backend : Backend α) : Attempt α :=
  match backend pipeline with
  | .ok built => pure built
  | .error reason => Attempt.fail (.backend reason)

end ShaderPipeline
