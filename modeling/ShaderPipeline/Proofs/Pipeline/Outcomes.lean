import Mathlib.Data.List.Forall2
import ShaderPipeline.Proofs.Pipeline.BufferSizes
import ShaderPipeline.Proofs.Program.Preprocessing

/-! The outcomes of assembly. A definition is compiled to the stages of its kind of program, and the
outcome for each stage is the outcome of preprocessing that stage alone. -/

namespace ShaderPipeline

namespace Definition

/-- The kinds of stage that a definition is compiled to, in their order. -/
def stageKinds (definition : Definition) : List StageKind :=
  if definition.vertex.isSome then
    [.vertex, .geometry, .fragment].filter fun kind => (definition.source? (.stage kind)).isSome
  else [.compute]

private theorem nodup_stageKinds (definition : Definition) : definition.stageKinds.Nodup := by
  rw [stageKinds]
  split
  · exact List.Pairwise.filter _ (by decide)
  · decide

end Definition

/-- Some entry is `hit`, and all entries before it are `passed`. -/
def FirstAt (passed hit : α → Prop) (entries : List α) : Prop :=
  ∃ before entry after, entries = before ++ entry :: after ∧ (∀ earlier ∈ before, passed earlier) ∧
    hit entry

private theorem firstAt_cons {passed hit : α → Prop} {entry : α} {rest : List α} :
    FirstAt passed hit (entry :: rest) ↔ hit entry ∨ passed entry ∧ FirstAt passed hit rest := by
  constructor
  · rintro ⟨_ | ⟨first, before⟩, found, after, split, earlier, here⟩
    · cases split
      exact .inl here
    · cases split
      obtain ⟨first, others⟩ := List.forall_mem_cons.mp earlier
      exact .inr ⟨first, before, found, after, rfl, others, here⟩
  · rintro (here | ⟨first, before, found, after, rfl, others, here⟩)
    · exact ⟨[], entry, rest, rfl, by simp, here⟩
    · exact ⟨entry :: before, found, after, rfl, List.forall_mem_cons.mpr ⟨first, others⟩, here⟩

private theorem firstAt_congr {passed hit passed' hit' : α → Prop} {entries : List α}
    (passes : ∀ entry ∈ entries, (passed entry ↔ passed' entry))
    (hits : ∀ entry ∈ entries, (hit entry ↔ hit' entry)) :
    FirstAt passed hit entries ↔ FirstAt passed' hit' entries := by
  induction entries with
  | nil => simp [FirstAt]
  | cons entry rest ih =>
    obtain ⟨passes, passesLater⟩ := List.forall_mem_cons.mp passes
    obtain ⟨hits, hitsLater⟩ := List.forall_mem_cons.mp hits
    rw [firstAt_cons, firstAt_cons, passes, hits, ih passesLater hitsLater]

/-- A program has the stages of a definition, each after the common text, and shares what the
definition and the options give to all stages. -/
structure Program.Of (definition : Definition) (defines : FeatureSet) (program : Program) :
    Prop where
  kinds : program.stages.map Stage.kind = definition.stageKinds
  sources : ∀ stage ∈ program.stages,
    ∃ own, definition.source? (.stage stage.kind) = some own ∧
      stage.source = match definition.common with
        | some common => common ++ '\n' :: own
        | none => own
  defines : program.defines = defines
  types : program.types = definition.types.getD .empty
  uniforms : program.uniforms = definition.uniforms.getD .empty

namespace Program

/-- The fault of the first stage in order that cannot be preprocessed. -/
def FirstFault (program : Program) (registry : Registry) (library? : Option String)
    (fault : Fault) : Prop :=
  FirstAt
    (fun stage => ∃ text, (program.preprocess stage.kind registry library?).value.1 = .ok text)
    (fun stage => (program.preprocess stage.kind registry library?).value.1 = .error fault)
    program.stages

namespace Of

variable {definition : Definition} {defines : FeatureSet} {program : Program}
  (made : program.Of definition defines)

include made

/-- A stage is preprocessed alike as the stage of its kind and as an entry of the list. -/
theorem preprocess_member {stage : Stage} (member : stage ∈ program.stages) (registry : Registry)
    (library? : Option String) :
    program.preprocess stage.kind registry library? =
      stage.preprocess program.defines registry library? := by
  have distinct : (program.stages.map Stage.kind).Nodup :=
    made.kinds ▸ definition.nodup_stageKinds
  rw [preprocess, stage?, find?_kind distinct member]

/-- Preprocessing a stage reads the common text, the stage's own text and what all stages share. -/
theorem preprocess_eq {kind : StageKind} (member : kind ∈ definition.stageKinds) :
    ∃ own, definition.source? (.stage kind) = some own ∧
      ∀ registry library?, program.preprocess kind registry library? =
        (⟨kind, Pipeline.withCommon definition.common own⟩ : Stage).preprocess defines registry
          library? := by
  obtain ⟨stage, found, rfl⟩ := List.mem_map.mp (made.kinds ▸ member)
  obtain ⟨own, present, source⟩ := made.sources stage found
  refine ⟨own, present, fun registry library? => ?_⟩
  have same : stage = ⟨stage.kind, Pipeline.withCommon definition.common own⟩ := by
    obtain ⟨kind, text⟩ := stage
    rw [Stage.mk.injEq]
    exact ⟨rfl, source.trans (by cases definition.common <;> rfl)⟩
  rw [made.preprocess_member found, made.defines, ← same]

theorem forall₂_stages (registry : Registry) (library? : Option String)
    (outputs : List Stage) :
    List.Forall₂ (fun stage output => output.kind = stage.kind ∧
      (program.preprocess stage.kind registry library?).value.1 = .ok output.source)
        program.stages outputs ↔
    List.Forall₂ (fun stage output => output.kind = stage.kind ∧
      (stage.preprocess program.defines registry library?).value.1 = .ok output.source)
        program.stages outputs := by
  have alone (stage : Stage) (member : stage ∈ program.stages) :=
    made.preprocess_member member registry library?
  constructor <;>
  · intro related
    refine ((List.forall₂_and_left _ _).mpr ⟨alone, related⟩).imp ?_
    rintro stage output ⟨same, kind, here⟩
    exact ⟨kind, same ▸ here⟩

theorem isErrorLine {registry : Registry} {library? : Option String} {fault : Fault}
    (first : program.FirstFault registry library? fault) :
    ∃ kind : StageKind, fault.IsErrorLine kind.name := by
  obtain ⟨before, stage, after, split, _, failed⟩ := first
  have member : stage ∈ program.stages := by simp [split]
  rw [made.preprocess_member member] at failed
  exact ⟨stage.kind, Stage.fault_preprocess failed⟩

theorem isCompute : program.isCompute = definition.vertex.isNone := by
  have kinds : program.isCompute = definition.stageKinds.any (· = .compute) := by
    rw [← made.kinds, List.any_map]
    rfl
  rw [kinds, Definition.stageKinds]
  cases definition.vertex with
  | none => rfl
  | some vertex => simp

end Of

end Program

namespace Pipeline

/-- A pipeline that holds a program with the output of each of its stages, and what else the
definition and the options determine. -/
structure Assembled (definition : Definition) (registry : Registry) (options : CompileOptions)
    (program : Program) (pipeline : Pipeline) : Prop where
  stages : List.Forall₂ (fun stage output => output.kind = stage.kind ∧
    (program.preprocess stage.kind registry options.library?).value.1 = .ok output.source)
      program.stages pipeline.stages
  program : pipeline.program = program
  layout : pipeline.layout = if definition.vertex.isSome then definition.layout.join else none
  state : pipeline.state = definition.state.getD .default
  rule : pipeline.rule = options.rule

section Stages

variable {registry : Registry} (fixed : registry.Fixed) (defines : FeatureSet)
  (library? : Option String)

include fixed

private theorem repeatable_preprocessStages (stages : List Stage) :
    Repeatable registry.providers fun registry =>
      preprocessStages defines library? registry stages := by
  induction stages with
  | nil => exact .pure (Except.ok [])
  | cons stage rest ih =>
    obtain ⟨outcome, log, steady⟩ := Stage.repeatable_preprocess fixed stage defines library?
    cases outcome with
    | error fault =>
      refine ⟨.error fault, log, fun calls => ?_⟩
      obtain ⟨between, here⟩ := steady calls
      exact ⟨between, by apply Logged.ext <;> simp [preprocessStages, here]⟩
    | ok source =>
      obtain ⟨others, more, goesOn⟩ := ih
      refine ⟨others.map (⟨stage.kind, source⟩ :: ·), log ++ more, fun calls => ?_⟩
      obtain ⟨between, here⟩ := steady calls
      obtain ⟨after, there⟩ := goesOn between
      exact ⟨after, by apply Logged.ext <;> simp [preprocessStages, here, there]⟩

/-- What the first stage asks of the registry makes no difference to the others. -/
theorem preprocessStages_cons (stage : Stage) (rest : List Stage) :
    (preprocessStages defines library? registry (stage :: rest)).value.1 =
      match (stage.preprocess defines registry library?).value.1 with
      | .error fault => .error fault
      | .ok source => (preprocessStages defines library? registry rest).value.1.map
          (⟨stage.kind, source⟩ :: ·) := by
  have others (calls : CallCounts) :=
    (repeatable_preprocessStages fixed defines library? rest).answer_eq calls registry.calls
  have kept :=
    (Stage.repeatable_preprocess fixed stage defines library?).providers_eq registry.calls
  rw [preprocessStages, Logged.value_bind]
  cases outcome : (stage.preprocess defines registry library?).value with
  | mk answer after =>
    rw [outcome] at kept
    obtain ⟨providers, calls⟩ := after
    obtain rfl : providers = registry.providers := kept
    cases answer with
    | error fault => rfl
    | ok source => exact congrArg (Except.map _) (others calls)

theorem preprocessStages_eq_ok (stages outputs : List Stage) :
    (preprocessStages defines library? registry stages).value.1 = .ok outputs ↔
      List.Forall₂ (fun stage output => output.kind = stage.kind ∧
        (stage.preprocess defines registry library?).value.1 = .ok output.source)
        stages outputs := by
  induction stages generalizing outputs with
  | nil =>
    constructor
    · intro done
      cases done
      exact .nil
    · intro related
      cases related
      rfl
  | cons stage rest ih =>
    rw [preprocessStages_cons fixed]
    cases outcome : (stage.preprocess defines registry library?).value.1 with
    | error fault =>
      constructor
      · intro done
        cases done
      · rintro (_ | ⟨⟨_, here⟩, _⟩)
        rw [outcome] at here
        cases here
    | ok source =>
      constructor
      · intro done
        cases others : (preprocessStages defines library? registry rest).value.1 with
        | error fault => rw [others] at done; cases done
        | ok more =>
          rw [others] at done
          cases done
          exact .cons ⟨rfl, outcome⟩ ((ih more).mp others)
      · rintro (_ | @⟨_, output, _, more, ⟨kind, here⟩, related⟩)
        rw [outcome] at here
        dsimp only
        rw [(ih more).mpr related]
        obtain ⟨_, _⟩ := output
        cases kind
        cases here
        rfl

theorem preprocessStages_eq_error (stages : List Stage) (fault : Fault) :
    (preprocessStages defines library? registry stages).value.1 = .error fault ↔
      FirstAt (fun stage => ∃ text, (stage.preprocess defines registry library?).value.1 = .ok text)
        (fun stage => (stage.preprocess defines registry library?).value.1 = .error fault)
        stages := by
  induction stages with
  | nil => simp [preprocessStages, FirstAt]
  | cons stage rest ih =>
    rw [preprocessStages_cons fixed, firstAt_cons, ← ih]
    cases (stage.preprocess defines registry library?).value.1 with
    | error found => simp
    | ok source =>
      cases (preprocessStages defines library? registry rest).value.1 <;> simp [Except.map]

end Stages

private theorem programOf_missing {definition : Definition} (defines : FeatureSet)
    (vertex : definition.vertex = none) (compute : definition.compute = none) :
    (programOf definition defines).run.value = .error .missingEntryStage := by
  have noVertex : definition.stageText? .vertex = none := congrArg (Option.map _) vertex
  have noCompute : definition.stageText? .compute = none := congrArg (Option.map _) compute
  rw [programOf_eq, noVertex, noCompute]
  rfl

/-- A definition with an entry stage has its program taken out, and its layout and state left. -/
theorem of_programOf {definition : Definition} (defines : FeatureSet)
    (entry : ¬ (definition.vertex = none ∧ definition.compute = none)) :
    ∃ program, (programOf definition defines).run.value =
        .ok (program, definition.withoutProgram) ∧
      program.Of definition defines := by
  have absent (kind : StageKind) :
      definition.stageText? kind = none ↔ definition.source? (.stage kind) = none :=
    Option.map_eq_none_iff
  have entered : ¬ (definition.stageText? .vertex = none ∧ definition.stageText? .compute = none) :=
    fun missing => entry ((and_congr (absent .vertex) (absent .compute)).mp missing)
  obtain ⟨made, value, holds⟩ := holds_programOfSources entered
  refine ⟨_, by rw [programOf_eq, Logged.value_run_bind, value]; rfl, ?_, ?_, rfl, rfl, rfl⟩
  · refine holds.kinds.trans ?_
    obtain ⟨layout, types, state, uniforms, common, vertex, geometry, fragment, compute⟩ :=
      definition
    cases vertex <;> cases geometry <;> cases fragment <;> cases compute <;>
      first | rfl | exact absurd ⟨rfl, rfl⟩ entry
  · intro stage member
    have text := holds.text?_of_mem member
    split at text
    · obtain ⟨own, present, source⟩ := Option.map_eq_some_iff.mp text
      exact ⟨own, present, source ▸ by cases definition.common <;> rfl⟩
    · cases text

private theorem value_layoutOf (definition : Definition) (program : Program) :
    (layoutOf definition program).value =
      (if program.isCompute then none else definition.layout.join, definition.erase .layout) := by
  rw [layoutOf, Definition.take_layout]
  cases program.isCompute <;> rcases definition.layout with _ | _ | layout <;> rfl

/-- Beyond its program and its layout, assembly only preprocesses the stages. -/
theorem value_assemble {definition : Definition} {options : CompileOptions} {program : Program}
    (programmed : (programOf definition options.defines).run.value =
      .ok (program, definition.withoutProgram))
    (registry : Registry) :
    (assemble definition registry options).run.value =
      (preprocessStages program.defines options.library? registry program.stages).value.1.map
        fun stages => ⟨if program.isCompute then none else definition.layout.join, program,
          definition.state.getD .default, stages, options.rule⟩ := by
  rw [assemble, Logged.value_run_bind, programmed]
  dsimp only
  rw [Logged.value_run_bind, Logged.value_run_liftM, value_layoutOf]
  dsimp only
  rw [Definition.take_state]
  dsimp only
  rw [Logged.value_run_bind, Logged.value_run_liftM]
  dsimp only
  cases (preprocessStages program.defines options.library? registry program.stages).value.1 <;> rfl

section Outcomes

variable {definition : Definition} {options : CompileOptions} {program : Program}
  {registry : Registry}

section Made

variable (fixed : registry.Fixed) (made : program.Of definition options.defines)
  (programmed : (programOf definition options.defines).run.value =
    .ok (program, definition.withoutProgram))

include fixed made programmed

theorem assemble_eq_error (fault : Fault) :
    (assemble definition registry options).run.value = .error fault ↔
      program.FirstFault registry options.library? fault := by
  have ofStages : (assemble definition registry options).run.value = .error fault ↔
      (preprocessStages program.defines options.library? registry program.stages).value.1 =
        .error fault := by
    rw [value_assemble programmed]
    cases (preprocessStages program.defines options.library? registry program.stages).value.1 <;>
      simp [Except.map]
  rw [ofStages, preprocessStages_eq_error fixed]
  apply firstAt_congr <;> intro stage member <;> rw [made.preprocess_member member]

theorem assemble_eq_ok (pipeline : Pipeline) :
    (assemble definition registry options).run.value = .ok pipeline ↔
      Assembled definition registry options program pipeline := by
  have alone (outputs : List Stage) :=
    made.forall₂_stages registry options.library? outputs
  have layout : (if program.isCompute then none else definition.layout.join) =
      if definition.vertex.isSome then definition.layout.join else none := by
    rw [made.isCompute]
    cases definition.vertex <;> rfl
  constructor
  · intro done
    rw [value_assemble programmed] at done
    cases staged :
        (preprocessStages program.defines options.library? registry program.stages).value.1 with
    | error fault => rw [staged] at done; cases done
    | ok outputs =>
      rw [staged] at done
      cases done
      exact {
        stages := (alone outputs).mpr ((preprocessStages_eq_ok fixed _ _ _ _).mp staged)
        program := rfl
        layout := layout
        state := rfl
        rule := rfl }
  · intro assembled
    obtain ⟨layout', program', state, outputs, rule⟩ := pipeline
    obtain ⟨stages, rfl, laid, state, rule⟩ := assembled
    dsimp only at stages laid state rule
    rw [value_assemble programmed,
      (preprocessStages_eq_ok fixed _ _ _ _).mpr ((alone _).mp stages), layout, laid, state, rule]
    rfl

end Made

theorem Assembled.kinds {pipeline : Pipeline}
    (assembled : Assembled definition registry options program pipeline) :
    pipeline.stages.map Stage.kind = program.stages.map Stage.kind := by
  have same : List.Forall₂ (· = ·) (program.stages.map Stage.kind)
      (pipeline.stages.map Stage.kind) := by
    rw [List.forall₂_map_left_iff, List.forall₂_map_right_iff]
    exact assembled.stages.imp fun _ _ here => here.1.symm
  rw [List.forall₂_eq_eq_eq] at same
  exact same.symm

/-- Every stage of an assembled program has its output under its kind. -/
theorem Assembled.stage?_eq {pipeline : Pipeline}
    (assembled : Assembled definition registry options program pipeline) {kind : StageKind}
    (member : kind ∈ program.stages.map Stage.kind) :
    ∃ text, pipeline.stage? kind = some text ∧
      (program.preprocess kind registry options.library?).value.1 = .ok text := by
  have search {stages outputs : List Stage} (related : List.Forall₂ (fun stage output =>
      output.kind = stage.kind ∧
        (program.preprocess stage.kind registry options.library?).value.1 = .ok output.source)
      stages outputs) (member : kind ∈ stages.map Stage.kind) :
      ∃ output, outputs.find? (·.kind = kind) = some output ∧
        (program.preprocess kind registry options.library?).value.1 = .ok output.source := by
    induction related with
    | nil => cases member
    | @cons stage output rest others here related ih =>
      obtain ⟨same, done⟩ := here
      by_cases first : stage.kind = kind
      · refine ⟨output, by simp [same, first], first ▸ done⟩
      · obtain ⟨found, position, done⟩ := ih (by simpa [Ne.symm first] using member)
        exact ⟨found, by simpa [same, first] using position, done⟩
  obtain ⟨output, found, done⟩ := search assembled.stages member
  exact ⟨output.source, by rw [stage?, found]; rfl, done⟩

theorem assembled_of_eq_ok (fixed : registry.Fixed) {pipeline : Pipeline}
    (done : (assemble definition registry options).run.value = .ok pipeline) :
    ∃ program, program.Of definition options.defines ∧
      Assembled definition registry options program pipeline := by
  by_cases entry : definition.vertex = none ∧ definition.compute = none
  · rw [assemble, Logged.value_run_bind, programOf_missing options.defines entry.1 entry.2] at done
    cases done
  · obtain ⟨program, programmed, made⟩ := of_programOf options.defines entry
    exact ⟨program, made, (assemble_eq_ok fixed made programmed pipeline).mp done⟩

/-- The output of a stage is the outcome of preprocessing its text alone. -/
theorem stage?_of_eq_ok (fixed : registry.Fixed) {pipeline : Pipeline}
    (done : (assemble definition registry options).run.value = .ok pipeline) {kind : StageKind}
    (member : kind ∈ definition.stageKinds) :
    ∃ own, definition.source? (.stage kind) = some own ∧
      pipeline.stage? kind = ((⟨kind, withCommon definition.common own⟩ : Stage).preprocess
        options.defines registry options.library?).value.1.toOption := by
  obtain ⟨program, made, assembled⟩ := assembled_of_eq_ok fixed done
  obtain ⟨text, output, outcome⟩ := assembled.stage?_eq (made.kinds ▸ member)
  obtain ⟨own, present, alone⟩ := made.preprocess_eq member
  refine ⟨own, present, ?_⟩
  rw [output, ← alone, outcome]
  rfl

end Outcomes

/-- Assembly fails for want of an entry stage, or with the fault of the first stage that cannot be
preprocessed, and otherwise outputs each stage of the definition's program as it is preprocessed
alone. -/
theorem assemble_outcomes (definition : Definition) {registry : Registry} (options : CompileOptions)
    (fixed : registry.Fixed) :
    ((assemble definition registry options).run.value = .error .missingEntryStage ↔
      definition.vertex = none ∧ definition.compute = none) ∧
    (¬ (definition.vertex = none ∧ definition.compute = none) →
      ∃ program, program.Of definition options.defines ∧
        (∀ fault, (assemble definition registry options).run.value = .error fault ↔
          program.FirstFault registry options.library? fault) ∧
        ∀ pipeline, (assemble definition registry options).run.value = .ok pipeline ↔
          Assembled definition registry options program pipeline) ∧
    ∀ (other : Definition) (others : CompileOptions) (kind : StageKind),
      other.common = definition.common →
      other.source? (.stage kind) = definition.source? (.stage kind) →
      others.defines = options.defines → others.library? = options.library? →
      kind ∈ definition.stageKinds → kind ∈ other.stageKinds →
      ∀ pipeline pipeline', (assemble definition registry options).run.value = .ok pipeline →
        (assemble other registry others).run.value = .ok pipeline' →
          pipeline.stage? kind = pipeline'.stage? kind := by
  refine ⟨⟨fun missing => ?_, fun ⟨vertex, compute⟩ => ?_⟩, fun entry => ?_, ?_⟩
  · by_contra entry
    obtain ⟨program, programmed, made⟩ := of_programOf options.defines entry
    have first := (assemble_eq_error fixed made programmed _).mp missing
    obtain ⟨_, _, _, other⟩ := made.isErrorLine first
    cases other
  · rw [assemble, Logged.value_run_bind, programOf_missing options.defines vertex compute]
  · obtain ⟨program, programmed, made⟩ := of_programOf options.defines entry
    exact ⟨program, made, assemble_eq_error fixed made programmed,
      assemble_eq_ok fixed made programmed⟩
  · intro other others kind common source defines library member member' pipeline pipeline'
      done done'
    obtain ⟨own, present, output⟩ := stage?_of_eq_ok fixed done member
    obtain ⟨own', present', output'⟩ := stage?_of_eq_ok fixed done' member'
    obtain rfl : own' = own := Option.some.inj (present'.symm.trans (source.trans present))
    rw [output, output', common, defines, library]

/-- Two stages, and a compute stage that a vertex stage leaves no place for. -/
def shortDefinition : Definition :=
  { Definition.empty with vertex := some [';'], fragment := some [';'], compute := some [';'] }

theorem assemble_outcomes_short :
    (Registry.ofTexts []).Fixed ∧ ∃ pipeline,
      (assemble shortDefinition (.ofTexts []) ⟨.std140, .empty, none⟩).run.value = .ok pipeline ∧
        pipeline.stages.map Stage.kind = [.vertex, .fragment] ∧
        pipeline.stage? .fragment = some [';'] := by
  have fixed := Registry.fixed_ofTexts []
  obtain ⟨_, outcomes, _⟩ := assemble_outcomes shortDefinition ⟨.std140, .empty, none⟩ fixed
  obtain ⟨program, made, fails, completes⟩ := outcomes (by simp [shortDefinition])
  have outcome {kind : StageKind} (member : kind ∈ shortDefinition.stageKinds) :
      (program.preprocess kind (.ofTexts []) none).value.1 = .ok [';'] := by
    obtain ⟨own, present, alone⟩ := made.preprocess_eq member
    have mark : own = [';'] := by
      cases kind <;> simp_all [shortDefinition, Definition.source?, Definition.empty]
    rw [alone, mark]
    exact congrArg Prod.fst (preprocess_mark kind .empty (.ofTexts []))
  cases answer : (assemble shortDefinition (.ofTexts []) ⟨.std140, .empty, none⟩).run.value with
  | error fault =>
    obtain ⟨before, stage, after, split, _, failed⟩ := (fails fault).mp answer
    have member : stage.kind ∈ shortDefinition.stageKinds := by simp [← made.kinds, split]
    rw [outcome member] at failed
    cases failed
  | ok pipeline =>
    have assembled := (completes pipeline).mp answer
    have member : StageKind.fragment ∈ shortDefinition.stageKinds := by decide
    obtain ⟨text, output, done⟩ := assembled.stage?_eq (made.kinds ▸ member)
    refine ⟨fixed, pipeline, rfl, ?_, ?_⟩
    · rw [assembled.kinds, made.kinds]
      decide
    · rw [outcome member] at done
      cases done
      exact output

end Pipeline

end ShaderPipeline
