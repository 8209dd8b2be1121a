import ShaderPipeline.Proofs.Include.Warnings
import ShaderPipeline.Program.Stage

/-! The log of the preprocessor: a live `#error` line is reported as an error and ends the pass,
and everything else is warned about. -/

namespace ShaderPipeline

open Logged

namespace Conditional.Pass

/-- From every state, the pass reports its fault, or is quiet if it has none. -/
def Reported (pass : Pass α) : Prop :=
  ∀ state, (pass.run.run state).Reports (pass.run.run state).value.1

private theorem reported_pure (answer : α) :
    Reported (pure answer : Pass α) := fun _ => quiet_pure _

private theorem reported_fail (fault : Fault) : Reported (fail fault : Pass α) :=
  fun _ => ⟨[], rfl, by simp⟩

private theorem reported_bind {first : Pass α} {next : α → Pass β} (reported : Reported first)
    (follows : ∀ answer, Reported (next answer)) : Reported (first >>= next) := by
  intro state
  rw [ExceptT.run_bind, StateT.run_bind]
  refine (reported state).bind (fun answer value => ?_) fun fault value => ?_
  · rw [value_bind, value]
    exact follows answer _
  · rw [value_bind, value]
    exact ⟨rfl, rfl⟩

private theorem reported_get : Reported (get : Pass State) := fun state => quiet_pure (_, state)

private theorem reported_modify (change : State → State) : Reported (modify change : Pass Unit) :=
  fun state => quiet_pure ((), change state)

private theorem reported_logged (message : String) :
    Reported (ExceptT.lift (StateT.lift (Logged.warn message)) : Pass Unit) :=
  fun _ => Logged.quiet_warn message

private theorem reported_warn (place : Place) (problem : Problem) : Reported (warn place problem) :=
  reported_logged _

private theorem reported_live : Reported live := reported_bind reported_get fun _ => reported_pure _

variable (place : Place) (argument : Text)

private theorem reported_changeGates (directive : String) (change : Gates → Option Gates) :
    Reported (changeGates place directive change) :=
  reported_bind reported_get fun state => by
    cases change state.gates with
    | some gates => exact reported_modify _
    | none => exact reported_warn place _

private theorem reported_define : Reported (define place argument) := by
  rw [define]
  obtain ⟨name, value⟩ := definition argument
  dsimp only
  split
  · exact reported_bind reported_get fun _ => reported_modify _
  · exact reported_warn place _

private theorem reported_undefine : Reported (undefine place argument) := by
  rw [undefine]
  cases (Text.words argument).head? with
  | some name => exact reported_bind reported_get fun _ => reported_modify _
  | none => exact reported_warn place _

private theorem reported_isDefined (directive : String) :
    Reported (isDefined place directive argument) := by
  rw [isDefined]
  cases (Text.words argument).head? with
  | some name => exact reported_bind reported_get fun _ => reported_pure _
  | none => exact reported_bind (reported_warn place _) fun _ => reported_pure _

private theorem reported_holds : Reported (holds place argument) :=
  reported_bind reported_get fun state => by
    dsimp only
    split
    · exact reported_pure _
    · exact reported_bind (reported_warn place _) fun _ => reported_pure _

private theorem reported_openGate {test : Pass Bool} (reported : Reported test) :
    Reported (openGate test) :=
  reported_bind reported_live fun isLive => by
    cases isLive with
    | true => exact reported_bind reported fun _ => reported_bind reported_get fun _ =>
        reported_modify _
    | false => exact reported_bind (reported_pure _) fun _ => reported_bind reported_get fun _ =>
        reported_modify _

private theorem reported_whenLive {action : Pass Unit} (reported : Reported action) :
    Reported (whenLive action) :=
  reported_bind reported_live fun isLive => by
    cases isLive with
    | true => exact reported
    | false => exact reported_pure ()

private theorem reported_keep (render : MacroTable → Text) : Reported (keep render) :=
  reported_bind reported_get fun _ => reported_pure _

/-- What leaves no lines reports as before. -/
theorem reported_taken {action : Pass Unit} (reported : Reported action) :
    Reported (do action; return ([] : List Text)) :=
  reported_bind reported fun _ => reported_pure []

private theorem reported_directive (line : Text) (name : String) :
    Reported (directive place line name argument) := by
  rw [directive]
  cases Command.ofName name with
  | define => exact reported_taken (reported_whenLive (reported_define place argument))
  | undefine => exact reported_taken (reported_whenLive (reported_undefine place argument))
  | ifDefined | ifNotDefined =>
    exact reported_taken (reported_openGate
      (reported_bind (reported_isDefined place argument name) fun _ => reported_pure _))
  | ifTrue => exact reported_taken (reported_openGate (reported_holds place argument))
  | elseIf =>
    exact reported_bind (reported_holds place argument) fun _ =>
      reported_taken (reported_changeGates place name _)
  | otherwise | endIf => exact reported_taken (reported_changeGates place name _)
  | error => exact reported_taken (reported_whenLive (reported_fail _))
  | foreign => exact reported_keep _

private theorem reported_line (line code : Text) : Reported (Pass.line place line code) := by
  rw [Pass.line]
  cases Directive.ofLine? code with
  | none => exact reported_keep _
  | some found => exact reported_directive place found.argument line found.name

private theorem reported_lines (origin : String) (number : Nat) (pairs : List (Text × Text)) :
    Reported (lines origin number pairs) := by
  induction pairs generalizing number with
  | nil => exact reported_pure []
  | cons pair rest ih =>
    exact reported_bind (reported_line ⟨origin, number⟩ pair.1 pair.2) fun _ =>
      reported_bind (ih (number + 1)) fun _ => reported_pure _

private theorem reported_finish (origin : String) : Reported (finish origin) :=
  reported_bind reported_get fun state => by
    dsimp only
    split
    · exact reported_logged _
    · exact reported_pure ()

private theorem reported_text (origin : String) (text : Text) : Reported (Pass.text origin text) :=
  reported_bind (reported_lines origin 1 _) fun _ =>
    reported_bind (reported_finish origin) fun _ => reported_pure _

end Conditional.Pass

namespace Preprocessor

variable (preprocessor : Preprocessor) (text : Text)

private theorem reports_conditionals :
    (preprocessor.conditionals text).Reports (preprocessor.conditionals text).value.1 :=
  .bind_pure (Conditional.Pass.reported_text preprocessor.origin text ⟨[], preprocessor.macros⟩) _

private theorem reports_run (registry : Registry) :
    (preprocessor.run registry text).Reports (preprocessor.run registry text).value.1.1 :=
  (Include.quiet_expand text registry).reports_bind
    (.bind_pure (preprocessor.reports_conditionals _) _)

end Preprocessor

theorem Stage.reports_preprocess (stage : Stage) (defines : FeatureSet) (registry : Registry)
    (library? : Option String) :
    (stage.preprocess defines registry library?).Reports
      (stage.preprocess defines registry library?).value.1 := by
  cases library? with
  | none => exact .bind_pure (Preprocessor.reports_run _ stage.source registry) _
  | some name =>
    rw [preprocess]
    refine .bind (Preprocessor.reports_run _ (preludeLine name) registry) (fun prelude value => ?_)
      fun fault value => ?_
    · rw [value_bind]
      dsimp only
      rw [value]
      exact reports_outcome_map.mpr (.bind_pure (Preprocessor.reports_run _ stage.source _) _)
    · rw [value_bind]
      dsimp only
      rw [value]
      exact ⟨rfl, rfl⟩

end ShaderPipeline
