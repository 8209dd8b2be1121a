import ShaderPipeline.Proofs.Conditional.Results
import ShaderPipeline.Proofs.Text.Stripping

/-! The conditional pass takes its way by the code of the lines. Without comments it goes the same
way: it ends at the same line, leaves the same macros and the same records. Only the lines that it
keeps are other lines. -/

namespace ShaderPipeline.Conditional.Pass

/-- A computation without its answer. -/
def discard (pass : Pass α) : Pass Unit := (fun _ => ()) <$> pass

/-- Lines that are kept after lines. -/
theorem discard_follow (first second : Pass (List Text)) :
    discard (do
      let here ← first
      return here ++ (← second)) = discard first >>= fun _ => discard second := by
  simp [discard]

private theorem discard_keep (render other : MacroTable → Text) :
    discard (keep render) = discard (keep other) := by
  simp [discard, keep]

/-- Of a line as it is written, nothing counts but its code. -/
theorem discard_line (place : Place) (text other code : Text) :
    discard (line place text code) = discard (line place other code) := by
  rw [line, line]
  cases Directive.ofLine? code with
  | none => exact discard_keep _ _
  | some found =>
    dsimp only
    rw [directive, directive]
    cases Command.ofName found.name with
    | foreign => exact discard_keep _ _
    | _ => rfl

private theorem discard_lines (origin : String) (number : Nat) (pairs : List (Text × Text)) :
    discard (lines origin number pairs) =
      discard (lines origin number (pairs.map fun pair => (pair.2, pair.2))) := by
  induction pairs generalizing number with
  | nil => rfl
  | cons pair rest ih =>
    obtain ⟨text, code⟩ := pair
    rw [List.map_cons, lines, lines, discard_follow, discard_follow, ih,
      discard_line _ text code code]

private theorem discard_text (origin : String) (text : Text) :
    discard (Pass.text origin text) =
      discard (lines origin 1 (Include.linesWithCode text)) >>= fun _ => finish origin := by
  simp [Pass.text, discard]

/-- Comments make no difference to the way of the pass. -/
theorem discard_text_stripComments (origin : String) (text : Text) :
    discard (Pass.text origin (Text.stripComments text)) = discard (Pass.text origin text) := by
  rw [discard_text, discard_text, Include.linesWithCode_stripComments, ← discard_lines]

private theorem run_discard (pass : Pass α) (state : State) :
    (discard pass).run.run state =
      (fun answer => (answer.1.map fun _ => (), answer.2)) <$> pass.run.run state := by
  rw [discard, ExceptT.run_map, StateT.run_map]

end ShaderPipeline.Conditional.Pass

namespace ShaderPipeline.Preprocessor

open Conditional

/-- The pass over a text without its comments fails with the same fault or not at all, as the pass
over the text does, and leaves the same macros and the same records. -/
theorem conditionals_stripComments (preprocessor : Preprocessor) (text : Text) :
    let run := preprocessor.conditionals text
    let bare := preprocessor.conditionals (Text.stripComments text)
    bare.value.1.map (fun _ => ()) = run.value.1.map (fun _ => ()) ∧
      bare.value.2 = run.value.2 ∧ bare.log = run.log := by
  have same := congrArg (fun pass => pass.run.run ⟨[], preprocessor.macros⟩)
    (Pass.discard_text_stripComments preprocessor.origin text)
  simp only [Pass.run_discard] at same
  have values := congrArg Logged.value same
  have logs := congrArg Logged.log same
  simp only [Logged.value_map, Logged.log_map, Prod.mk.injEq] at values logs
  have macros := congrArg State.macros values.2
  refine ⟨values.1, congrArg (mk preprocessor.origin) macros, ?_⟩
  simp only [conditionals, Logged.log_bind, Logged.log_pure, List.append_nil]
  exact logs

end ShaderPipeline.Preprocessor
