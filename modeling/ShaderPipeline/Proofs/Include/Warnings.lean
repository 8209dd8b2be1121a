import ShaderPipeline.Include.Expansion
import ShaderPipeline.Proofs.Reports

/-! Include expansion warns, and does nothing else to the log: also an include that is missing, or
that would not end, is warned about and leaves a marker. -/

namespace ShaderPipeline.Include

/-- Whatever has been asked for before, nothing is recorded but warnings. -/
def Expanding.Quiet (expanding : Expanding α) : Prop := ∀ calls, (expanding.run calls).Quiet

namespace Expanding

private theorem quiet_pure (answer : α) : Quiet (pure answer) := fun _ => Logged.quiet_pure _

private theorem quiet_mark (problem : Problem) : (mark problem).Quiet := by
  intro calls
  simp [mark]

theorem Quiet.bind {first : Expanding α} {next : α → Expanding β} (quiet : first.Quiet)
    (follows : ∀ answer, (next answer).Quiet) : Quiet (first >>= next) := by
  intro calls
  rw [StateT.run_bind]
  exact Logged.quiet_bind.mpr ⟨quiet calls, follows _ _⟩

end Expanding

open Expanding

private theorem quiet_expandLines (providers : Providers) (chain : List String)
    (pairs : List (Text × Text)) : (expandLines providers chain pairs).Quiet := by
  induction chain, pairs using expandLines.induct providers with
  | case1 chain =>
    rw [expandLines]
    exact quiet_pure []
  | case2 chain line code rest inside following =>
    rw [expandLines]
    refine .bind ?_ fun here => .bind following fun others => quiet_pure _
    cases LineKind.ofLine code with
    | plain => exact quiet_pure _
    | malformed => exact quiet_mark _
    | splice name =>
      dsimp only
      split
      next => exact quiet_mark _
      next idle =>
        split
        next => exact quiet_mark _
        next provider found =>
          -- the text depends on how often the provider has been asked
          intro calls
          have text := inside name idle provider found (CallCounts.ask calls name).1
            (CallCounts.ask calls name).2
          simpa using text

theorem quiet_expand (text : Text) (registry : Registry) : (expand text registry).Quiet := by
  rw [expand]
  exact Logged.quiet_bind.mpr ⟨quiet_expandLines _ _ _ _, Logged.quiet_pure _⟩

end ShaderPipeline.Include
