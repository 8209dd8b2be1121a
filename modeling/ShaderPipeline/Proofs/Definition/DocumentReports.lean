import ShaderPipeline.Definition.Document
import ShaderPipeline.Proofs.Schema.Warnings
import ShaderPipeline.Proofs.Vertex.SectionReports

/-! The log of a definition document: the layout section may report an error, and everything else
warns. -/

namespace ShaderPipeline

open Attempt Logged

namespace State

@[simp] theorem quiet_applyLine (state : State) (number : Nat) (text : Text) :
    (state.applyLine number text).Quiet := by
  rw [applyLine]
  cases Line.ofText text <;> simp

private theorem quiet_applyLines (state : State) (number : Nat) (texts : List Text) :
    (state.applyLines number texts).Quiet := by
  induction texts generalizing state number with
  | nil => simp [applyLines]
  | cons text rest ih => simp [applyLines, ih]

private theorem quiet_ofSection (text : Text) : (ofSection text).Quiet := quiet_applyLines _ _ _

end State

namespace Definition

private theorem quiet_gather (accumulators : Accumulators) (current? : Option SectionKind)
    (lines : List Text) : (gather accumulators current? lines).Quiet := by
  induction lines generalizing accumulators current? with
  | nil => simp [gather]
  | cons line rest ih =>
    rw [gather.eq_def]
    dsimp only
    cases sectionArgument? line with
    | some argument => simp [ih]
    | none => cases current? <;> exact ih _ _

private theorem reported_ofAccumulators (accumulators : Accumulators) :
    (ofAccumulators accumulators).Reported := by
  rw [ofAccumulators]
  refine reported_bind (reported_mapM fun _ _ =>
    reported_liftM.mpr (Schema.Types.quiet_ofSection _)) fun types? _ => ?_
  refine reported_bind (reported_mapM fun _ _ =>
    reported_liftM.mpr (Schema.Uniforms.quiet_ofSection _ _)) fun uniforms? _ => ?_
  refine reported_bind (reported_mapM fun _ _ => Vertex.Layout.reported_ofSection _)
    fun layout? _ => ?_
  exact reported_bind (reported_mapM fun _ _ => reported_liftM.mpr (State.quiet_ofSection _))
    fun state? _ => reported_pure _

theorem reported_ofDocument (document : Text) : (ofDocument document).Reported :=
  reported_liftM_bind (quiet_gather _ _ _) (reported_ofAccumulators _)

end Definition
end ShaderPipeline
