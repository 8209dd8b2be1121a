import ShaderPipeline.Program.Basic
import ShaderPipeline.Proofs.Conditional.Composition
import ShaderPipeline.Proofs.Include.FixedTexts

/-! What preprocessing a stage can answer. Its only faults are error lines of its own origin, and
with fixed texts it answers the same however often it is carried out. -/

namespace ShaderPipeline

/-- A fault of an error line in a text with the given label. -/
def Fault.IsErrorLine (origin : String) (fault : Fault) : Prop :=
  ∃ line message, fault = .errorDirective origin line message

namespace Conditional.Pass

private theorem fault_line {place : Place} {text code : Text} {state after : State} {fault : Fault}
    (failed : (line place text code).result state = (.error fault, after)) :
    fault.IsErrorLine place.origin := by
  rw [line] at failed
  cases found : Directive.ofLine? code with
  | none => rw [found, result_keep] at failed; cases failed
  | some read =>
    rw [found] at failed
    dsimp only at failed
    rw [result_directive] at failed
    cases asks : Command.ofName read.name with
    | error =>
      rw [asks] at failed
      cases live : state.gates.live with
      | true =>
        simp only [live, ↓reduceIte, Prod.mk.injEq, Except.error.injEq] at failed
        exact ⟨_, _, failed.1.symm⟩
      | false => simp [live] at failed
    | _ => rw [asks] at failed; cases failed

private theorem fault_lines {origin : String} {number : Nat} {pairs : List (Text × Text)}
    {state after : State} {fault : Fault}
    (failed : (lines origin number pairs).result state = (.error fault, after)) :
    fault.IsErrorLine origin := by
  induction pairs generalizing number state with
  | nil => cases failed
  | cons pair rest ih =>
    obtain ⟨text, code⟩ := pair
    rw [lines, result_follow] at failed
    cases here : (line ⟨origin, number⟩ text code).result state with
    | mk answer between =>
      cases answer with
      | error found =>
        rw [here] at failed
        cases failed
        exact fault_line here
      | ok kept =>
        rw [here] at failed
        dsimp only at failed
        cases there : (lines origin (number + 1) rest).result between with
        | mk others last =>
          rw [there] at failed
          cases others with
          | ok more => cases failed
          | error found =>
            cases failed
            exact ih there

end Conditional.Pass

namespace Preprocessor

open Conditional

private theorem fault_conditionals {preprocessor : Preprocessor} {text : Text} {fault : Fault}
    (failed : (preprocessor.conditionals text).value.1 = .error fault) :
    fault.IsErrorLine preprocessor.origin := by
  rw [value_conditionals, Pass.result_text] at failed
  cases run : (Pass.lines preprocessor.origin 1 (Include.linesWithCode text)).result
    ⟨[], preprocessor.macros⟩ with
  | mk answer after =>
    rw [run] at failed
    cases answer with
    | ok kept => cases failed
    | error found =>
      cases failed
      exact Pass.fault_lines run

private theorem fault_run {preprocessor : Preprocessor} {registry : Registry} {text : Text}
    {fault : Fault} (failed : (preprocessor.run registry text).value.1.1 = .error fault) :
    fault.IsErrorLine preprocessor.origin :=
  fault_conditionals failed

private theorem repeatable_run {registry : Registry} (fixed : registry.Fixed)
    (preprocessor : Preprocessor) (text : Text) :
    Repeatable registry.providers fun registry => preprocessor.run registry text :=
  (Include.repeatable_expand fixed text).bind fun resolved =>
    .logged (preprocessor.conditionals resolved)

end Preprocessor

namespace Stage

/-- What follows the pass over the library. -/
def afterPrelude (stage : Stage) (library : Except Fault Text × Preprocessor)
    (registry : Registry) : Logged (Except Fault Text × Registry) :=
  match library.1 with
  | .error fault => pure (.error fault, registry)
  | .ok prelude => do
    let ((body, _), registry) ← library.2.run registry stage.source
    return (body.map (joinParts prelude), registry)

private theorem preprocess_library (stage : Stage) (defines : FeatureSet) (registry : Registry)
    (name : String) :
    stage.preprocess defines registry (some name) =
      (stage.preprocessor defines).run registry (preludeLine name) >>= fun (library, asked) =>
        stage.afterPrelude library asked := rfl

private theorem repeatable_afterPrelude {registry : Registry} (fixed : registry.Fixed)
    (stage : Stage) (library : Except Fault Text × Preprocessor) :
    Repeatable registry.providers (stage.afterPrelude library) := by
  obtain ⟨prelude, preprocessor⟩ := library
  cases prelude with
  | error fault => exact .pure (Except.error fault)
  | ok prelude =>
    exact (Preprocessor.repeatable_run fixed preprocessor stage.source).bind fun body =>
      .pure (body.1.map (joinParts prelude))

theorem repeatable_preprocess {registry : Registry} (fixed : registry.Fixed) (stage : Stage)
    (defines : FeatureSet) (library? : Option String) :
    Repeatable registry.providers fun registry =>
      stage.preprocess defines registry library? := by
  cases library? with
  | none => exact (Preprocessor.repeatable_run fixed _ _).bind fun answer => .pure answer.1
  | some name =>
    simp only [preprocess_library]
    exact (Preprocessor.repeatable_run fixed _ (preludeLine name)).bind fun library =>
      repeatable_afterPrelude fixed stage library

private theorem fault_afterPrelude {stage : Stage} {prelude : Except Fault Text}
    {preprocessor : Preprocessor} {registry : Registry} {fault : Fault}
    (failed : (stage.afterPrelude (prelude, preprocessor) registry).value.1 = .error fault) :
    prelude = .error fault ∨ fault.IsErrorLine preprocessor.origin := by
  cases prelude with
  | error found =>
    cases failed
    exact .inl rfl
  | ok prelude =>
    cases ran : (preprocessor.run registry stage.source).value.1.1 with
    | ok body => simp [afterPrelude, ran, Except.map] at failed
    | error found =>
      have same : found = fault := by simpa [afterPrelude, ran, Except.map] using failed
      exact .inr (same ▸ Preprocessor.fault_run ran)

theorem fault_preprocess {stage : Stage} {defines : FeatureSet} {registry : Registry}
    {library? : Option String} {fault : Fault}
    (failed : (stage.preprocess defines registry library?).value.1 = .error fault) :
    fault.IsErrorLine stage.kind.name := by
  cases library? with
  | none => exact Preprocessor.fault_conditionals failed
  | some name =>
    rw [preprocess_library, Logged.value_bind] at failed
    rcases fault_afterPrelude failed with prelude | body
    · exact Preprocessor.fault_run prelude
    · exact body

end Stage

end ShaderPipeline
