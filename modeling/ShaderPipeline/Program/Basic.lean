import ShaderPipeline.Program.Stage
import ShaderPipeline.Schema.Uniform

/-! Programs: a vertex stage with a geometry and a fragment stage if they are wanted, or a compute
stage alone. All stages share the program's definitions, types and uniforms. -/

namespace ShaderPipeline

structure Program where
  defines : FeatureSet
  types : Schema.Types
  uniforms : Schema.Uniforms
  /-- In the order of kinds, at most one of each. -/
  stages : List Stage
  deriving DecidableEq, Repr

namespace Program

/-- A program of a single stage. -/
def ofEntry (entry : Stage) : Program := ⟨.empty, .empty, .empty, [entry]⟩

def graphics (vertex : Text) : Program := ofEntry ⟨.vertex, vertex⟩

def compute (source : Text) : Program := ofEntry ⟨.compute, source⟩

def isCompute (program : Program) : Bool := program.stages.any (·.kind = .compute)

def stage? (program : Program) (kind : StageKind) : Option Stage :=
  program.stages.find? (·.kind = kind)

/-- Puts a stage at its place, over a stage of the same kind. Among stages in the order of kinds the
place is where any search for the kind ends. -/
def insertStage (stage : Stage) : List Stage → List Stage
  | [] => [stage]
  | first :: rest =>
    if stage.kind = first.kind then stage :: rest
    else if stage.kind.rank < first.kind.rank then stage :: first :: rest
    else first :: insertStage stage rest

/-- A compute program takes a compute stage only, and a graphics program all others. -/
def accepts (program : Program) (kind : StageKind) : Bool :=
  program.isCompute == (kind == .compute)

/-- Adds a stage or replaces the stage of its kind, if the program takes such a stage. -/
def addStage (program : Program) (stage : Stage) : Logged (Bool × Program) :=
  if program.accepts stage.kind then
    return (true, { program with stages := insertStage stage program.stages })
  else do
    let kind := if program.isCompute then "compute" else "graphics"
    Logged.warn s!"{stage.kind.name} stage cannot be added to a {kind} program"
    return (false, program)

/-- Preprocesses the stage of a kind. -/
def preprocess (program : Program) (kind : StageKind) (registry : Registry)
    (library? : Option String) : Logged (Except Fault Text × Registry) :=
  match program.stage? kind with
  | none => ⟨(.error (.stageNotPresent kind.name), registry),
      [.failure (.stageNotPresent kind.name)]⟩
  | some stage => stage.preprocess program.defines registry library?

end Program

end ShaderPipeline
