import ShaderPipeline.Proofs.Memory.Undersized
import ShaderPipeline.Proofs.Pipeline.Programs
import ShaderPipeline.Proofs.Program.Prelude
import ShaderPipeline.Proofs.Schema.Blocks

/-! The memory that the structs and the buffers of a document need. It is defined exactly where no
member is undersized, under every rule. -/

namespace ShaderPipeline

open Schema Memory

namespace Definition

/-- The types and the uniforms of a definition fit together. -/
def WellFormed (definition : Definition) : Prop :=
  (definition.types.getD .empty).WellFormed ∧
    (definition.uniforms.getD .empty).WellFormed (definition.types.getD .empty)

/-- Sections that cannot fail are read if they are there. -/
theorem of_mapM_ok {read : Text → Logged α} {text? : Option Text} {answer? : Option α}
    (done : (text?.mapM fun text => (liftM (read text) : Attempt α)).run.value = .ok answer?) :
    answer? = text?.map fun text => (read text).value := by
  rw [Logged.value_run_mapM_liftM] at done
  exact (Except.ok.inj done).symm

private theorem wellFormed_ofAccumulators {accumulators : Accumulators} {definition : Definition}
    (done : (ofAccumulators accumulators).run.value = .ok definition) :
    definition.WellFormed := by
  rw [ofAccumulators] at done
  obtain ⟨types?, typesRead, done⟩ := Logged.of_bind_ok done
  obtain ⟨uniforms?, uniformsRead, done⟩ := Logged.of_bind_ok done
  obtain ⟨layout?, _, done⟩ := Logged.of_bind_ok done
  obtain ⟨state?, _, done⟩ := Logged.of_bind_ok done
  cases done
  rw [ofStored_eq, of_mapM_ok uniformsRead, of_mapM_ok typesRead]
  constructor
  · cases accumulators.text? .types with
    | none => exact .nil
    | some text => exact Types.wellFormed_ofSection text
  · cases accumulators.text? .uniforms with
    | none => exact fun _ absent => (nomatch absent)
    | some text => exact Uniforms.wellFormed_ofSection text _

private theorem wellFormed_ofDocument {document : Text} {definition : Definition}
    (done : (ofDocument document).run.value = .ok definition) : definition.WellFormed := by
  obtain ⟨accumulators, _, done⟩ := Logged.of_bind_ok done
  exact wellFormed_ofAccumulators done

end Definition

namespace Pipeline

/-- An assembled pipeline has the types and the uniforms of its definition. -/
theorem program_assemble {definition : Definition} {registry : Registry}
    {options : CompileOptions} {pipeline : Pipeline}
    (done : (assemble definition registry options).run.value = .ok pipeline) :
    pipeline.program.types = definition.types.getD .empty ∧
      pipeline.program.uniforms = definition.uniforms.getD .empty := by
  obtain ⟨⟨program, rest⟩, programmed, done⟩ := Logged.of_bind_ok done
  obtain ⟨⟨layout, rest⟩, _, done⟩ := Logged.of_bind_ok done
  obtain ⟨⟨outcome, after⟩, _, done⟩ := Logged.of_bind_ok done
  rw [programOf_eq] at programmed
  obtain ⟨made, _, programmed⟩ := Logged.of_bind_ok programmed
  cases programmed
  cases outcome with
  | error fault => cases done
  | ok preprocessed =>
    cases done
    exact ⟨rfl, rfl⟩

private theorem wellFormed_compile {document : Text} {registry : Registry}
    {options : CompileOptions} {pipeline : Pipeline}
    (done : (compile document registry options).run.value = .ok pipeline) :
    pipeline.program.types.WellFormed ∧
      pipeline.program.uniforms.WellFormed pipeline.program.types := by
  obtain ⟨definition, read, done⟩ := Logged.of_bind_ok done
  obtain ⟨types, uniforms⟩ := program_assemble done
  rw [types, uniforms]
  exact Definition.wellFormed_ofDocument read

/-- The buffers of a program are measured exactly where none of them has an undersized member. -/
theorem failsIff_bufferSizes {pipeline : Pipeline} (types : pipeline.program.types.WellFormed)
    (uniforms : pipeline.program.uniforms.WellFormed pipeline.program.types) :
    FailsIff pipeline.bufferSizes.result
      (∃ block ∈ pipeline.program.uniforms.buffers,
        Undersized pipeline.program.types pipeline.rule block.properties) := by
  refine failsIff_mapM fun block member => ?_
  have placed := failsIff_known pipeline.rule types block.name (uniforms block member)
  rw [Measured.result_bind, BufferBlock.place]
  rcases placed.cases with ⟨short, failed⟩ | ⟨sound, placements, answered⟩
  · exact .of_error short (by rw [failed])
  · exact .of_ok sound (by rw [answered]; rfl)

/-- The layouts of declared structs and of buffers, and the buffer sizes of a compiled document,
have an answer under every rule exactly where no member is undersized. Where one is, the bytes of
its struct are subtracted from fewer; no sum, product or rounding leaves 32 bits. -/
theorem layouts_fail_iff_undersized (typesText uniformsText : Text) (rule : Rule) :
    let types := (Types.ofSection typesText).value
    let uniforms := (Uniforms.ofSection uniformsText types).value
    (∀ struct ∈ types.structs, ∃ layout, placeStruct types rule struct.name = some layout ∧
      FailsIff layout.result (Undersized types rule struct.properties)) ∧
    (∀ block ∈ uniforms.buffers,
      FailsIff (block.place rule types).result (Undersized types rule block.properties)) ∧
    ∀ (document : Text) (registry : Registry) (options : CompileOptions) (pipeline : Pipeline),
      (compile document registry options).run.value = .ok pipeline →
        FailsIff { pipeline with rule }.bufferSizes.result
          (∃ block ∈ pipeline.program.uniforms.buffers,
            Undersized pipeline.program.types rule block.properties) := by
  have types := Types.wellFormed_ofSection typesText
  have uniforms := Uniforms.wellFormed_ofSection uniformsText (Types.ofSection typesText).value
  refine ⟨fun struct member => failsIff_struct rule types member,
    fun block member => failsIff_known rule types block.name (uniforms block member), ?_⟩
  intro document registry options pipeline done
  obtain ⟨types, uniforms⟩ := wellFormed_compile done
  exact @failsIff_bufferSizes { pipeline with rule } types uniforms

/-- A struct of an array that padding drives out of 32 bits, and a struct with a member of it. -/
def hugeArray : Text :=
  "struct A \x7b float a[268435456]; \x7d;\nstruct B \x7b A a; \x7d;".toList

private theorem mem_hugeArray : (⟨"B", [⟨"a", .struct "A", 1⟩], 1073741824⟩ : Struct) ∈
    (Types.ofSection hugeArray).value.structs := by
  decide +kernel

private theorem placeStruct_hugeArray :
    (placeStruct (Types.ofSection hugeArray).value .std140 "B").map (·.result.toOption) =
      some none := by
  decide +kernel

/-- A document with a buffer of the array's struct, and the shortest stage. -/
def hugeDocument : Text :=
  "#section types\n".toList ++ hugeArray ++
    "\n#section uniforms\nbuffer Data \x7b A a; \x7d;\n#section vertex\n;".toList

def hugeDefinition : Definition :=
  { Definition.empty with
    types := some (Types.ofSection hugeArray).value
    uniforms := some ⟨[.ofBuffer ⟨"Data", [⟨"a", .struct "A", 1⟩]⟩]⟩
    vertex := some [';'] }

private theorem ofDocument_hugeDocument :
    (Definition.ofDocument hugeDocument).run.value = .ok hugeDefinition :=
  ok_of_toOption (by decide +kernel)

theorem preprocess_mark (kind : StageKind) (defines : FeatureSet) (registry : Registry) :
    ((⟨kind, [';']⟩ : Stage).preprocess defines registry none).value = (.ok [';'], registry) := by
  have plain : Include.Plain [';'] := by decide +kernel
  have lines : Include.linesWithCode [';'] = [([';'], [';'])] := by decide +kernel
  have same : Include.resolved [';'] = [';'] := by decide +kernel
  simp only [Stage.preprocess, Logged.value_bind, Preprocessor.run, Include.value_expand plain,
    Logged.value_pure, same, Preprocessor.value_conditionals, Conditional.Pass.result_text, lines]
  rw [Preprocessor.result_lines_text _ _ _ rfl (by decide)]
  rfl

private theorem assemble_hugeDefinition (registry : Registry) :
    ∃ pipeline, (assemble hugeDefinition registry ⟨.std140, .empty, none⟩).run.value =
      .ok pipeline := by
  let program : Program := ⟨.empty, hugeDefinition.types.getD .empty,
    hugeDefinition.uniforms.getD .empty, [⟨.vertex, [';']⟩]⟩
  have programmed : (programOf hugeDefinition .empty).run.value = .ok (program, .empty) := rfl
  have laid : (layoutOf .empty program : Attempt _).run.value = .ok (none, .empty) := rfl
  have stages : (preprocessStages .empty none registry program.stages).value =
      (.ok [⟨.vertex, [';']⟩], registry) := by
    rw [preprocessStages, Logged.value_bind, preprocess_mark]
    rfl
  have staged : (preprocessStages .empty none registry program.stages : Attempt _).run.value =
      .ok (.ok [⟨.vertex, [';']⟩], registry) := congrArg Except.ok stages
  rw [assemble, Logged.value_run_bind, programmed]
  dsimp only
  rw [Logged.value_run_bind, laid]
  dsimp only
  rw [Logged.value_run_bind, staged]
  exact ⟨_, rfl⟩

theorem compile_hugeDocument (registry : Registry) :
    ∃ pipeline, (compile hugeDocument registry ⟨.std140, .empty, none⟩).run.value = .ok pipeline ∧
      pipeline.program.types = (Types.ofSection hugeArray).value ∧
      pipeline.program.uniforms.buffers = [⟨"Data", [⟨"a", .struct "A", 1⟩]⟩] := by
  obtain ⟨pipeline, done⟩ := assemble_hugeDefinition registry
  obtain ⟨types, uniforms⟩ := program_assemble done
  refine ⟨pipeline, ?_, types, by rw [uniforms]; rfl⟩
  rw [compile, Logged.value_run_bind, ofDocument_hugeDocument]
  exact done

theorem hugeArray_undersized :
    let types := (Types.ofSection hugeArray).value
    let properties : List Property := [⟨"a", .struct "A", 1⟩]
    Undersized types .std140 properties ∧ ¬ Undersized types .packed properties ∧
      ∃ pipeline,
        (compile hugeDocument (.ofTexts []) ⟨.std140, .empty, none⟩).run.value = .ok pipeline ∧
        { pipeline with rule := .std140 }.bufferSizes.result = .error .subtract ∧
        ∃ sizes, { pipeline with rule := .packed }.bufferSizes.result = .ok sizes := by
  have completes : (placeStruct (Types.ofSection hugeArray).value .packed "B").map
      (·.result.toOption.isSome) = some true := by decide +kernel
  have underPadding := layouts_fail_iff_undersized hugeArray [] .std140
  have withoutPadding := layouts_fail_iff_undersized hugeArray [] .packed
  obtain ⟨_, foundPadded, padded⟩ := underPadding.1 _ mem_hugeArray
  obtain ⟨_, foundTight, tight⟩ := withoutPadding.1 _ mem_hugeArray
  have short : Undersized (Types.ofSection hugeArray).value .std140 [⟨"a", .struct "A", 1⟩] := by
    rcases padded.cases with ⟨short, _⟩ | ⟨_, answer, answered⟩
    · exact short
    · have fails := placeStruct_hugeArray
      simp [foundPadded, answered, Except.toOption] at fails
  have sound : ¬ Undersized (Types.ofSection hugeArray).value .packed [⟨"a", .struct "A", 1⟩] := by
    intro short
    simp [foundTight, tight.fails short, Except.toOption] at completes
  obtain ⟨pipeline, done, types, buffers⟩ := compile_hugeDocument (.ofTexts [])
  refine ⟨short, sound, pipeline, done, (underPadding.2.2 _ _ _ _ done).fails ?_,
    (withoutPadding.2.2 _ _ _ _ done).completes ?_⟩
  · rw [types, buffers]
    exact ⟨_, List.mem_singleton_self _, short⟩
  · rw [types, buffers]
    rintro ⟨block, member, short⟩
    obtain rfl := List.mem_singleton.mp member
    exact sound short

theorem hugeArray_fails :
    ∃ struct ∈ (Types.ofSection hugeArray).value.structs, ∃ layout,
      placeStruct (Types.ofSection hugeArray).value .std140 struct.name = some layout ∧
        layout.result = .error .subtract := by
  obtain ⟨layout, found, outcome⟩ :=
    failsIff_struct .std140 (Types.wellFormed_ofSection hugeArray) mem_hugeArray
  refine ⟨_, mem_hugeArray, layout, found, ?_⟩
  rcases outcome.cases with ⟨_, failed⟩ | ⟨_, answer, answered⟩
  · exact failed
  · have fails := placeStruct_hugeArray
    simp [found, answered, Except.toOption] at fails

end Pipeline

end ShaderPipeline
