import ShaderPipeline.Definition.Document
import ShaderPipeline.Pipeline.Basic

/-! Assembly of pipelines from definitions. A vertex section makes a graphics program, and without
one a compute section makes a compute program. Every stage starts with the common section, and is
preprocessed on its own. -/

namespace ShaderPipeline.Pipeline

/-- Sections that the kind of program leaves out. -/
inductive Problem where
  | computeIgnored
  | stagesWithoutVertex
  | layoutOfCompute

def Problem.message : Problem → String
  | .computeIgnored =>
    "Definition has both vertex and compute sections, compute is ignored"
  | .stagesWithoutVertex => "Geometry and fragment sections need a vertex section, ignored"
  | .layoutOfCompute => "Vertex layout has no meaning for a compute program, ignored"

def warn (problem : Problem) : Logged Unit := Logged.warn problem.message

/-- A stage's text after the common text. -/
def withCommon (common? : Option Text) (text : Text) : Text :=
  match common? with
  | none => text
  | some common => common ++ '\n' :: text

/-- Adds a stage to a program if there is a source for it. -/
def addSource (program : Program) (kind : StageKind) : Option Text → Logged Program
  | none => return program
  | some source => do
    let (_, program) ← program.addStage ⟨kind, source⟩
    return program

/-- The program of the sources that there are. -/
def programOfSources (vertex geometry fragment compute : Option Text) : Attempt Program :=
  match vertex, compute with
  | some vertex, compute => do
    if compute.isSome then warn .computeIgnored
    let program ← addSource (.graphics vertex) .geometry geometry
    addSource program .fragment fragment
  | none, some compute => do
    if geometry.isSome || fragment.isSome then warn .stagesWithoutVertex
    return .compute compute
  | none, none => Attempt.fail .missingEntryStage

def takeSource (definition : Definition) (kind : SourceKind) : Option Text × Definition :=
  definition.take (.source kind) Section.text?

/-- Takes the program out of a definition. -/
def programOf (definition : Definition) (defines : FeatureSet) :
    Attempt (Program × Definition) := do
  let (common?, definition) := takeSource definition .common
  let (vertex, definition) := takeSource definition (.stage .vertex)
  let (geometry, definition) := takeSource definition (.stage .geometry)
  let (fragment, definition) := takeSource definition (.stage .fragment)
  let (compute, definition) := takeSource definition (.stage .compute)
  let program ← programOfSources (vertex.map (withCommon common?))
    (geometry.map (withCommon common?)) (fragment.map (withCommon common?))
    (compute.map (withCommon common?))
  let (types?, definition) := definition.take .types Section.types?
  let (uniforms?, definition) := definition.take .uniforms Section.uniforms?
  return ({ program with
    defines, types := types?.getD .empty, uniforms := uniforms?.getD .empty }, definition)

/-- Takes the layout out of a definition, as far as the program has a use for it. -/
def layoutOf (definition : Definition) (program : Program) :
    Logged (Option Vertex.Layout × Definition) :=
  let (layout?, definition) := definition.take .layout Section.layout?
  let layout := layout?.join
  if program.isCompute && layout.isSome then do
    warn .layoutOfCompute
    return (none, definition)
  else return (layout, definition)

/-- Preprocesses stages in turn, up to the first fault. -/
def preprocessStages (defines : FeatureSet) (library? : Option String) (registry : Registry) :
    List Stage → Logged (Except Fault (List Stage) × Registry)
  | [] => return (.ok [], registry)
  | stage :: rest => do
    let (outcome, registry) ← stage.preprocess defines registry library?
    match outcome with
    | .error fault => return (.error fault, registry)
    | .ok source =>
      let (others, registry) ← preprocessStages defines library? registry rest
      return (others.map (⟨stage.kind, source⟩ :: ·), registry)

/-- Assembles a definition. -/
def assemble (definition : Definition) (registry : Registry) (options : CompileOptions) :
    Attempt Pipeline := do
  let (program, definition) ← programOf definition options.defines
  let (layout, definition) ← layoutOf definition program
  let (state?, _) := definition.take .state Section.state?
  let (outcome, _) ← preprocessStages program.defines options.library? registry program.stages
  match outcome with
  | .error fault => throw fault
  | .ok stages => return ⟨layout, program, state?.getD .default, stages, options.rule⟩

/-- Reads and assembles a definition document. -/
def compile (document : Text) (registry : Registry) (options : CompileOptions) :
    Attempt Pipeline := do
  assemble (← Definition.ofDocument document) registry options

end ShaderPipeline.Pipeline
