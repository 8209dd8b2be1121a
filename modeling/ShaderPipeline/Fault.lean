/-! Fatal faults of a compilation. A fault aborts the work in progress; every other problem is
a warning. -/

namespace ShaderPipeline

inductive Fault where
  /-- A packed group was asked to hold more bits than it has left. -/
  | packedOverflow (group field : String) (requested available : Nat)
  /-- A definition has neither a vertex nor a compute stage. -/
  | missingEntryStage
  /-- A stage was asked of a program that does not carry it. -/
  | stageNotPresent (stage : String)
  /-- An `#error` line was reached in live text. -/
  | errorDirective (origin : String) (line : Nat) (message : String)
  /-- The backend refused the compiled pipeline. -/
  | backend (reason : String)
  deriving DecidableEq, Repr

namespace Fault

/-- The message for the caller. -/
def message : Fault → String
  | .packedOverflow group field requested available =>
    s!"Packed group '{group}' cannot fit field '{field}': {requested} bits requested, " ++
      s!"{available} available"
  | .missingEntryStage =>
    "Pipeline definition has no stage: a vertex or compute section is required"
  | .stageNotPresent stage => s!"Program has no {stage} stage"
  | .errorDirective origin line message => s!"#error in {origin} (line {line}): {message}"
  | .backend reason => s!"Backend failed to create pipeline: {reason}"

/-- The line for the log. -/
def report : Fault → String
  | .packedOverflow group field requested available =>
    s!"Packed group '{group}': field '{field}' needs {requested} bits, only {available} left"
  | .missingEntryStage => "Pipeline definition has neither a vertex nor a compute section"
  | .stageNotPresent stage => s!"Program has no {stage} stage"
  | .errorDirective origin line message => s!"{origin}:{line}: #error {message}"
  | .backend reason => s!"Backend rejected pipeline: {reason}"

end Fault

end ShaderPipeline
