import ShaderPipeline.Pipeline.Assembly
import ShaderPipeline.Proofs.Program.Stages

/-! The program of a definition. Its stages are added to the entry stage one after the other, the
program takes every one of them, and what is left of the definition is its layout and its state. -/

namespace ShaderPipeline

namespace Definition

variable (definition : Definition)

/-- What is taken out of a definition is what its section of the kind was made of. -/
private theorem take_eq {kind : SectionKind} (make : α → Section) {content? : Section → Option α}
    {held? : Option α} (present : definition.section? kind = held?.map make)
    (reads : ∀ held, content? (make held) = some held) :
    definition.take kind content? = (held?, definition.erase kind) := by
  rw [take, present]
  cases held? with
  | none => rfl
  | some held => exact congrArg (·, definition.erase kind) (reads held)

@[simp] theorem take_layout :
    definition.take .layout Section.layout? = (definition.layout, definition.erase .layout) :=
  definition.take_eq .layout rfl fun _ => rfl

@[simp] theorem take_types :
    definition.take .types Section.types? = (definition.types, definition.erase .types) :=
  definition.take_eq .types rfl fun _ => rfl

@[simp] theorem take_state :
    definition.take .state Section.state? = (definition.state, definition.erase .state) :=
  definition.take_eq .state rfl fun _ => rfl

@[simp] theorem take_uniforms :
    definition.take .uniforms Section.uniforms? =
      (definition.uniforms, definition.erase .uniforms) :=
  definition.take_eq .uniforms rfl fun _ => rfl

@[simp] theorem take_source (kind : SourceKind) :
    definition.take (.source kind) Section.text? =
      (definition.source? kind, definition.erase (.source kind)) :=
  definition.take_eq (.source kind) rfl fun _ => rfl

/-- The text for a stage, after the common text. -/
def stageText? (kind : StageKind) : Option Text :=
  (definition.source? (.stage kind)).map (Pipeline.withCommon definition.common)

/-- What is left of a definition when its program is taken out. -/
def withoutProgram : Definition :=
  { Definition.empty with layout := definition.layout, state := definition.state }

end Definition

namespace Program.Holds

variable {program : Program} {text? : StageKind → Option Text}

/-- A graphics program takes a source for one of its stages, if there is one. -/
theorem addSource (holds : program.Holds text?) (graphics : text? .compute = none)
    (kind : StageKind) (fits : kind ≠ .compute) (source? : Option Text) :
    (Pipeline.addSource program kind source?).value.Holds fun other =>
      if kind = other then source?.or (text? other) else text? other := by
  cases source? with
  | none => simpa [Pipeline.addSource] using holds
  | some source =>
    obtain ⟨accepts, -, accepted⟩ := holds.addStage ⟨kind, source⟩
    have takes : (program.addStage ⟨kind, source⟩).value.1 = true :=
      accepts.mpr (by simp [graphics, fits])
    exact (accepted takes).2

end Program.Holds

namespace Pipeline

/-- A vertex text makes a program of all texts but that for compute. Without one the program is of
the text for compute alone. -/
theorem holds_programOfSources {text? : StageKind → Option Text}
    (entry : ¬ (text? .vertex = none ∧ text? .compute = none)) :
    ∃ program, (programOfSources (text? .vertex) (text? .geometry) (text? .fragment)
        (text? .compute)).run.value = .ok program ∧
      program.Holds fun kind =>
        if (kind = .compute ↔ text? .vertex = none) then text? kind else none := by
  cases vertex : text? .vertex with
  | some text =>
    have entered := Program.holds_ofEntry text .vertex
    have withGeometry := entered.addSource rfl .geometry (by decide) (text? .geometry)
    have complete := withGeometry.addSource rfl .fragment (by decide) (text? .fragment)
    refine ⟨_, by cases text? .compute <;> rfl, complete.congr fun kind => ?_⟩
    cases kind <;> simp [vertex]
  | none =>
    cases compute : text? .compute with
    | none => exact absurd ⟨vertex, compute⟩ entry
    | some text =>
      refine ⟨.compute text, ?_, ?_⟩
      · cases text? .geometry <;> cases text? .fragment <;> rfl
      · refine (Program.holds_ofEntry text .compute).congr fun kind => ?_
        cases kind <;> simp [compute]

/-- The program is made of the stages' texts. It shares the caller's definitions, the types and the
uniforms, and what is taken out for it leaves the rest of the definition as it was. -/
theorem programOf_eq (definition : Definition) (defines : FeatureSet) :
    programOf definition defines = (do
      let program ← programOfSources (definition.stageText? .vertex)
        (definition.stageText? .geometry) (definition.stageText? .fragment)
        (definition.stageText? .compute)
      return ({ program with
        defines, types := definition.types.getD .empty,
        uniforms := definition.uniforms.getD .empty }, definition.withoutProgram)) := by
  simp only [programOf, takeSource, Definition.take_source, Definition.take_types,
    Definition.take_uniforms]
  rfl

end Pipeline

end ShaderPipeline
