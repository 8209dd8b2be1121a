import ShaderPipeline.Proofs.Include.Seams

/-! Runs in a row. A text that ends with its line, its comments and its conditionals hands on the
macro table and nothing else, so a text behind it is carried out as in a run of its own. -/

namespace ShaderPipeline.Preprocessor

open Conditional

/-- What the pass over a text comes to: the lines that it keeps or the fault that ends it, and the
state that it leaves. -/
def outcome (preprocessor : Preprocessor) (text : Text) :
    Except Fault (List Text) × Conditional.State :=
  (Pass.lines preprocessor.origin 1 (Include.linesWithCode text)).result ⟨[], preprocessor.macros⟩

private theorem value_conditionals_outcome (preprocessor : Preprocessor) (text : Text) :
    (preprocessor.conditionals text).value =
      ((preprocessor.outcome text).1.map Text.joinLines,
        { preprocessor with macros := (preprocessor.outcome text).2.macros }) := by
  rw [value_conditionals, Pass.result_text]
  rfl

/-- Behind lines that leave no conditional open, lines are carried out as at the start of a run. -/
theorem result_lines_follow (origin : String) {first : List (Text × Text)} {kept : List Text}
    {macros between : MacroTable}
    (done : (Pass.lines origin 1 first).result ⟨[], macros⟩ = (.ok kept, ⟨[], between⟩))
    (second : List (Text × Text)) :
    (Pass.lines origin 1 (first ++ second)).result ⟨[], macros⟩ =
      let rest := (Pass.lines origin 1 second).result ⟨[], between⟩
      ((rest.1.map (kept ++ ·)).mapError (Fault.below first.length), rest.2) := by
  rw [Pass.lines_append, Pass.result_follow, done]
  dsimp only
  rw [Pass.lines_below]
  cases ((Pass.lines origin 1 second).result ⟨[], between⟩).1 <;> rfl

/-- A run over a text and another one behind it keeps the lines of both runs and leaves the macros
of the second run, which starts with the macros that the first one leaves. It fails if and only if
the second run fails, with the same message at a line that is counted from the start of the first
text. -/
theorem conditionals_append (preprocessor : Preprocessor) {first : Text}
    (ended : first = [] ∨ first.getLast? = some '\n') (closed : Text.Closed first)
    {kept : List Text} {macros : MacroTable}
    (done : preprocessor.outcome first = (.ok kept, ⟨[], macros⟩)) (second : Text) :
    let later : Preprocessor := { preprocessor with macros }
    let rest := later.outcome second
    preprocessor.outcome (first ++ second) =
        ((rest.1.map (kept ++ ·)).mapError (Fault.below (Text.lines first).length), rest.2) ∧
      (preprocessor.conditionals (first ++ second)).value =
        ((rest.1.map fun more => Text.joinLines (kept ++ more)).mapError
            (Fault.below (Text.lines first).length),
          (later.conditionals second).value.2) := by
  intro later rest
  obtain ⟨apart, count⟩ :
      Include.linesWithCode (first ++ second) =
          Include.linesWithCode first ++ Include.linesWithCode second ∧
        (Include.linesWithCode first).length = (Text.lines first).length := by
    rcases ended with rfl | ended
    · exact ⟨rfl, rfl⟩
    · exact ⟨Include.linesWithCode_append ended closed second, Include.length_linesWithCode ended⟩
  have whole : preprocessor.outcome (first ++ second) =
      ((rest.1.map (kept ++ ·)).mapError (Fault.below (Text.lines first).length), rest.2) := by
    rw [outcome, apart, result_lines_follow _ done, count]
    rfl
  refine ⟨whole, ?_⟩
  rw [value_conditionals_outcome, whole, value_conditionals_outcome]
  cases rest.1 <;> rfl

/-- The fault of an answer that is one. -/
def fault? : Except Fault α → Option Fault
  | .ok _ => none
  | .error fault => some fault

theorem error_of_fault? {answer : Except Fault α} {fault : Fault}
    (found : fault? answer = some fault) : answer = .error fault := by
  cases answer with
  | ok value => cases found
  | error other => exact congrArg Except.error (Option.some.inj found)

/-- A text with a definition and a comment over two lines. -/
def sizes : Text := "#define N 3 // three\n/* a\nb */ int n = N;\n".toList

/-- A text that asks for the definition and ends in its third line. -/
def refusal : Text := "#if N == 3\nint m = N;\n#error no N\n#endif".toList

def fresh : Preprocessor := ⟨"main", {}⟩

theorem conditionals_append_sizes :
    let macros := (fresh.outcome sizes).2.macros
    sizes.getLast? = some '\n' ∧ Text.Closed sizes ∧
      fresh.outcome sizes = (.ok ["/* a".toList, "b */ int n = 3;".toList], ⟨[], macros⟩) ∧
      (fresh.conditionals (sizes ++ "N N".toList)).value.1 =
        .ok "/* a\nb */ int n = 3;\n3 3".toList ∧
      (fresh.conditionals (sizes ++ refusal)).value.1 =
        .error (.errorDirective "main" 6 "no N") := by
  intro macros
  have ended : sizes.getLast? = some '\n' := by decide +kernel
  have closed : Text.Closed sizes := by decide +kernel
  have kept : (fresh.outcome sizes).1 = .ok ["/* a".toList, "b */ int n = 3;".toList] :=
    ok_of_toOption (by decide +kernel)
  have shut : (fresh.outcome sizes).2.gates = [] := by decide +kernel
  have done : fresh.outcome sizes =
      (.ok ["/* a".toList, "b */ int n = 3;".toList], ⟨[], macros⟩) := by
    rw [← kept, ← shut]
  refine ⟨ended, closed, done, ?_, ?_⟩
  · rw [(conditionals_append fresh (.inr ended) closed done "N N".toList).2]
    exact ok_of_toOption (by decide +kernel)
  · rw [(conditionals_append fresh (.inr ended) closed done refusal).2]
    exact error_of_fault? (by decide +kernel)

end ShaderPipeline.Preprocessor
