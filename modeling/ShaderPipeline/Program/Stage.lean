import ShaderPipeline.Preprocessor

/-! Shader stages. Preprocessing a stage defines the stage's own macro, and reads the standard
library before the stage in a pass of its own, so that line numbers count from the stage's
text. -/

namespace ShaderPipeline

inductive StageKind where
  | vertex
  | geometry
  | fragment
  | compute
  deriving DecidableEq, Repr

namespace StageKind

def all : List StageKind := [.vertex, .geometry, .fragment, .compute]

def name : StageKind → String
  | .vertex => "vertex"
  | .geometry => "geometry"
  | .fragment => "fragment"
  | .compute => "compute"

def ofName? (name : String) : Option StageKind := all.find? (·.name == name)

/-- The macro that is defined in a stage. -/
def macroName : StageKind → String
  | .vertex => "VERTEX"
  | .geometry => "GEOMETRY"
  | .fragment => "FRAGMENT"
  | .compute => "COMPUTE"

/-- The place of a stage in the order of stages. -/
def rank : StageKind → Nat
  | .vertex => 0
  | .geometry => 1
  | .fragment => 2
  | .compute => 3

end StageKind

structure Stage where
  kind : StageKind
  source : Text
  deriving DecidableEq, Repr

namespace Stage

/-- A preprocessor with the given definitions and the stage's macro. -/
def preprocessor (stage : Stage) (defines : FeatureSet) : Preprocessor :=
  (Preprocessor.ofDefines defines stage.kind.name).define stage.kind.macroName ['1']

/-- The line that includes the standard library. -/
def preludeLine (name : String) : Text := s!"#include \"{name}\"".toList

/-- A prelude and a body as one text, without a line for one that is empty. -/
def joinParts (prelude body : Text) : Text :=
  if prelude.isEmpty then body
  else if body.isEmpty then prelude
  else prelude ++ '\n' :: body

/-- Preprocesses a stage, after the library of the given name if there is one. -/
def preprocess (stage : Stage) (defines : FeatureSet) (registry : Registry)
    (library? : Option String) : Logged (Except Fault Text × Registry) := do
  let preprocessor := stage.preprocessor defines
  match library? with
  | none =>
    let ((outcome, _), registry) ← preprocessor.run registry stage.source
    return (outcome, registry)
  | some name =>
    let ((prelude, preprocessor), registry) ← preprocessor.run registry (preludeLine name)
    match prelude with
    | .error fault => return (.error fault, registry)
    | .ok prelude =>
      let ((body, _), registry) ← preprocessor.run registry stage.source
      return (body.map (joinParts prelude), registry)

end Stage

end ShaderPipeline
