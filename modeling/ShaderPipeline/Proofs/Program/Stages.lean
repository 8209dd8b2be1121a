import Mathlib.Data.List.Sort
import ShaderPipeline.Program.Basic
import ShaderPipeline.Proofs.Logged

/-! The stages of a program. They stand in the order of their kinds with at most one of each, and a
compute stage stands alone. Adding a stage keeps that. A stage that the program takes comes to the
place of its kind and leaves the others as they were, and any other stage changes nothing. -/

namespace ShaderPipeline

namespace StageKind

def Precedes (first second : StageKind) : Prop := first.rank < second.rank

instance : Std.Irrefl Precedes := ⟨fun kind => Nat.lt_irrefl kind.rank⟩

instance : Std.Antisymm Precedes := ⟨fun _ _ here there => absurd here (Nat.lt_asymm there)⟩

private theorem mem_all (kind : StageKind) : kind ∈ all := by
  cases kind <;> decide

private theorem pairwise_all : all.Pairwise Precedes := by
  unfold Precedes
  decide

/-- Kinds that are not the same follow one another. -/
theorem precedes_or {first second : StageKind} (apart : first ≠ second) :
    first.Precedes second ∨ second.Precedes first := by
  have ranks : first.rank ≠ second.rank := by
    cases first <;> cases second <;> first | exact absurd rfl apart | decide
  exact Nat.lt_or_gt_of_ne ranks

end StageKind

namespace Program

/-- Stages in the order of their kinds, at most one of each. -/
def Ordered (stages : List Stage) : Prop := (stages.map Stage.kind).Pairwise StageKind.Precedes

private theorem mem_insertStage {stage other : Stage} {stages : List Stage}
    (member : other ∈ insertStage stage stages) : other = stage ∨ other ∈ stages := by
  induction stages with
  | nil => exact .inl (List.mem_singleton.mp member)
  | cons first rest ih =>
    rw [insertStage] at member
    split at member
    · exact (List.mem_cons.mp member).imp_right (List.mem_cons_of_mem first)
    · split at member
      · exact List.mem_cons.mp member
      · rcases List.mem_cons.mp member with rfl | later
        · exact .inr List.mem_cons_self
        · exact (ih later).imp_right (List.mem_cons_of_mem first)

theorem Ordered.insertStage {stages : List Stage} (ordered : Ordered stages) (stage : Stage) :
    Ordered (insertStage stage stages) := by
  induction stages with
  | nil => exact List.pairwise_singleton _ _
  | cons first rest ih =>
    obtain ⟨behind, others⟩ := List.pairwise_cons.mp ordered
    rw [Program.insertStage]
    split
    next same =>
      rw [Ordered, List.map_cons, same]
      exact ordered
    next apart =>
      split
      next before =>
        refine List.pairwise_cons.mpr ⟨fun kind member => ?_, ordered⟩
        rcases List.mem_cons.mp member with rfl | later
        · exact before
        · exact Nat.lt_trans before (behind kind later)
      next notBefore =>
        refine List.pairwise_cons.mpr ⟨fun kind member => ?_, ih others⟩
        obtain ⟨other, inserted, rfl⟩ := List.mem_map.mp member
        rcases mem_insertStage inserted with rfl | later
        · exact (StageKind.precedes_or apart).resolve_left notBefore
        · exact behind _ (List.mem_map_of_mem later)

private theorem find?_insertStage_self (stage : Stage) (stages : List Stage) :
    (insertStage stage stages).find? (·.kind = stage.kind) = some stage := by
  induction stages with
  | nil => simp [insertStage]
  | cons first rest ih =>
    rw [insertStage]
    split
    · simp
    next apart =>
      split
      · simp
      · rw [List.find?_cons_of_neg (by simpa using Ne.symm apart), ih]

private theorem find?_insertStage_of_ne {stage : Stage} {kind : StageKind}
    (other : stage.kind ≠ kind) (stages : List Stage) :
    (insertStage stage stages).find? (·.kind = kind) = stages.find? (·.kind = kind) := by
  induction stages with
  | nil => simp [insertStage, other]
  | cons first rest ih =>
    rw [insertStage]
    split
    next same => simp [other, ← same]
    next =>
      split
      · simp [other]
      · rw [List.find?_cons, List.find?_cons, ih]

/-- The kinds of stages in order are the kinds that a search finds. -/
theorem Ordered.kinds_eq {stages : List Stage} (ordered : Ordered stages) :
    stages.map Stage.kind =
      StageKind.all.filter fun kind => (stages.find? (·.kind = kind)).isSome := by
  refine List.Pairwise.eq_of_mem_iff ordered (StageKind.pairwise_all.filter _) fun kind => ?_
  rw [List.mem_filter, List.find?_isSome, List.mem_map]
  simp [kind.mem_all]

theorem find?_kind {stages : List Stage} (distinct : (stages.map Stage.kind).Nodup)
    {stage : Stage} (member : stage ∈ stages) :
    stages.find? (·.kind = stage.kind) = some stage := by
  induction stages with
  | nil => cases member
  | cons first rest ih =>
    obtain ⟨fresh, distinct⟩ := List.nodup_cons.mp distinct
    rcases List.mem_cons.mp member with rfl | later
    · simp
    · have other : first.kind ≠ stage.kind := by
        intro same
        exact fresh (same ▸ List.mem_map_of_mem later)
      rw [List.find?_cons_of_neg (by simpa using other)]
      exact ih distinct later

/-- The stages of a program are those with a text, in the order of kinds, and no other stage stands
beside a compute stage. -/
structure Holds (program : Program) (text? : StageKind → Option Text) : Prop where
  ordered : Ordered program.stages
  stages : ∀ kind, program.stage? kind = (text? kind).map (Stage.mk kind)
  alone : (text? .compute).isSome = true → ∀ kind, (text? kind).isSome = true → kind = .compute

section Entries

variable (text : Text)

theorem holds_ofEntry (kind : StageKind) :
    (ofEntry ⟨kind, text⟩).Holds fun other => if kind = other then some text else none where
  ordered := List.pairwise_singleton _ _
  stages other := by
    rw [stage?, ofEntry, List.find?_singleton]
    by_cases same : kind = other
    · simp [same]
    · simp [same]
  alone := by
    intro compute other present
    simp_all

end Entries

namespace Holds

variable {program : Program} {text? : StageKind → Option Text} (holds : program.Holds text?)

include holds

theorem congr {other? : StageKind → Option Text} (same : ∀ kind, text? kind = other? kind) :
    program.Holds other? := funext same ▸ holds

theorem kinds : program.stages.map Stage.kind =
    StageKind.all.filter fun kind => (text? kind).isSome := by
  rw [holds.ordered.kinds_eq]
  refine List.filter_congr fun kind _ => ?_
  have same := congrArg Option.isSome (holds.stages kind)
  rwa [Option.isSome_map] at same

theorem text?_of_mem {stage : Stage} (member : stage ∈ program.stages) :
    text? stage.kind = some stage.source := by
  have found := holds.stages stage.kind
  rw [stage?, find?_kind (List.Pairwise.nodup holds.ordered) member] at found
  obtain ⟨source, present, same⟩ := Option.map_eq_some_iff.mp found.symm
  rw [present, ← same]

theorem isCompute : program.isCompute = (text? .compute).isSome := by
  have same := congrArg Option.isSome (holds.stages .compute)
  rw [Option.isSome_map] at same
  rw [← same, Program.isCompute, stage?, List.isSome_find?]

theorem accepts_iff (kind : StageKind) :
    program.accepts kind = true ↔ ((text? .compute).isSome = true ↔ kind = .compute) := by
  rw [accepts, holds.isCompute, beq_iff_eq, Bool.eq_iff_iff, beq_iff_eq]

/-- A stage that is not a compute stage, or takes the place of one, leaves a compute stage alone. -/
theorem insertStage {stage : Stage} (accepted : program.accepts stage.kind = true) :
    { program with stages := Program.insertStage stage program.stages }.Holds fun kind =>
      if stage.kind = kind then some stage.source else text? kind where
  ordered := holds.ordered.insertStage stage
  stages kind := by
    rw [stage?]
    by_cases own : stage.kind = kind
    · subst own
      rw [find?_insertStage_self, if_pos rfl]
      rfl
    · rw [find?_insertStage_of_ne own, if_neg own]
      exact holds.stages kind
  alone compute kind present := by
    have takes := (holds.accepts_iff stage.kind).mp accepted
    by_cases entry : stage.kind = .compute
    · split at present
      next own => exact own ▸ entry
      next => exact holds.alone (takes.mpr entry) kind present
    · rw [if_neg entry] at compute
      exact absurd (takes.mp compute) entry

/-- A program takes a stage exactly if both are of compute or neither is. Then the stage comes to
the place of its kind, and otherwise the program stays as it was. -/
theorem addStage (stage : Stage) :
    let added := (program.addStage stage).value
    (added.1 = true ↔ ((text? .compute).isSome = true ↔ stage.kind = .compute)) ∧
      (added.1 = false → added.2 = program) ∧
      (added.1 = true → added.2 = { program with stages := added.2.stages } ∧
        added.2.Holds fun kind => if stage.kind = kind then some stage.source else text? kind) := by
  rw [Program.addStage, ← holds.accepts_iff stage.kind]
  cases accepted : program.accepts stage.kind with
  | true => exact ⟨by simp, nofun, fun _ => ⟨rfl, holds.insertStage accepted⟩⟩
  | false => exact ⟨iff_of_false Bool.false_ne_true Bool.false_ne_true, fun _ => rfl, nofun⟩

end Holds
end Program
end ShaderPipeline
