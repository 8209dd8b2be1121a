import ShaderPipeline.Pipeline.Assembly
import ShaderPipeline.Proofs.Conditional.Reports
import ShaderPipeline.Proofs.Conditional.Runs
import ShaderPipeline.Proofs.Definition.DocumentReports
import ShaderPipeline.Proofs.Pipeline.BufferSizes

/-! The log of a compilation. A fault is reported as the one error in the log, in words that name
what the fault names; a compilation without a fault logs no error. -/

namespace ShaderPipeline

open Attempt Logged

namespace Pipeline

@[simp] theorem quiet_warn (problem : Problem) : (warn problem).Quiet := Logged.quiet_warn _

@[simp] theorem quiet_addSource (program : Program) (kind : StageKind) (source? : Option Text) :
    (addSource program kind source?).Quiet := by
  cases source? with
  | none => exact quiet_pure _
  | some source =>
    rw [addSource, Program.addStage]
    split <;> simp

private theorem reported_programOfSources (vertex geometry fragment compute : Option Text) :
    (programOfSources vertex geometry fragment compute).Reported := by
  rw [programOfSources.eq_def]
  cases vertex with
  | some vertex =>
    refine reported_when (quiet_warn _) ?_
    exact reported_liftM_bind (quiet_addSource _ _ _) (reported_liftM.mpr (quiet_addSource _ _ _))
  | none =>
    cases compute with
    | some compute => exact reported_when (quiet_warn _) (reported_pure _)
    | none => exact reported_fail _

theorem reported_programOf (definition : Definition) (defines : FeatureSet) :
    (programOf definition defines).Reported := by
  rw [programOf_eq]
  exact reported_bind (reported_programOfSources _ _ _ _) fun _ _ => reported_pure _

private theorem quiet_layoutOf (definition : Definition) (program : Program) :
    (layoutOf definition program).Quiet := by
  rw [layoutOf, Definition.take_layout]
  simp

private theorem reports_preprocessStages (defines : FeatureSet) (library? : Option String)
    (registry : Registry) (stages : List Stage) :
    (preprocessStages defines library? registry stages).Reports
      (preprocessStages defines library? registry stages).value.1 := by
  induction stages generalizing registry with
  | nil => exact quiet_pure _
  | cons stage rest ih =>
    rw [preprocessStages]
    refine .bind (stage.reports_preprocess defines registry library?) (fun source value => ?_)
      fun fault value => ?_
    · rw [value_bind]
      dsimp only
      rw [value]
      exact reports_outcome_map.mpr (.bind_pure (ih _) _)
    · rw [value_bind]
      dsimp only
      rw [value]
      exact ⟨rfl, rfl⟩

theorem reported_assemble (definition : Definition) (registry : Registry)
    (options : CompileOptions) : (assemble definition registry options).Reported := by
  refine reported_bind (reported_programOf definition options.defines) fun ⟨program, rest⟩ _ => ?_
  refine reported_liftM_bind (quiet_layoutOf rest program) ?_
  refine reported_of_reports (reports_preprocessStages program.defines options.library? registry
    program.stages) (fun stages done => ?_) fun fault failed => ?_
  · dsimp only
    rw [done]
    exact reported_pure _
  · dsimp only
    rw [failed]

theorem reported_compile (document : Text) (registry : Registry)
    (options : CompileOptions) :
    (compile document registry options).Reported :=
  reported_bind (Definition.reported_ofDocument document) fun definition _ =>
    reported_assemble definition registry options

/-- The errors of a log. -/
def errors (log : List Record) : List Record := log.filter Record.isError

private theorem errors_of_quiet {log : List Record}
    (quiet : ∀ record ∈ log, record.isError = false) :
    errors log = [] :=
  List.filter_eq_nil_iff.mpr fun record member => by simp [quiet record member]

private theorem errors_of_reports {logged : Logged α} {fault : Fault}
    (reports : logged.Reports (.error fault : Except Fault β)) :
    errors logged.log = [.failure fault] := by
  obtain ⟨warnings, log, quiet⟩ := reports
  rw [log, errors, List.filter_append, ← errors, errors_of_quiet quiet]
  rfl

/-- A compilation that succeeds logs no error. One that fails logs a single error, behind all
warnings, and the line for it names what its fault names. -/
theorem compile_errors (document : Text) (registry : Registry) (options : CompileOptions) :
    let compiled := (compile document registry options).run
    (∀ pipeline, compiled.value = .ok pipeline → errors compiled.log = []) ∧
    (∀ fault, compiled.value = .error fault →
      errors compiled.log = [.failure fault] ∧
        compiled.log.getLast? = some (.failure fault)) ∧
    (∀ group field requested available,
      compiled.value = .error (.packedOverflow group field requested available) →
        (errors compiled.log).map Record.text =
          [s!"Packed group '{group}': field '{field}' needs {requested} bits, only {available} left"]) ∧
    ∀ origin line message, compiled.value = .error (.errorDirective origin line message) →
      (errors compiled.log).map Record.text = [s!"{origin}:{line}: #error {message}"] := by
  intro compiled
  have reported : compiled.Reports compiled.value := reported_compile document registry options
  have single (fault : Fault) (failed : compiled.value = .error fault) :
      errors compiled.log = [.failure fault] := errors_of_reports (failed ▸ reported)
  refine ⟨fun pipeline done => ?_, fun fault failed => ⟨single fault failed, ?_⟩, ?_, ?_⟩
  · rw [done] at reported
    exact errors_of_quiet reported
  · rw [failed] at reported
    obtain ⟨warnings, log, -⟩ := reported
    rw [log, List.getLast?_concat]
  · intro group field requested available failed
    rw [single _ failed]
    rfl
  · intro origin line message failed
    rw [single _ failed]
    rfl

/-- A layout whose second field does not fit. -/
def overfullDocument : Text :=
  "#section layout\npacked g \x7b int a 31\nint b 2 \x7d\n#section vertex\n;".toList

/-- A compute stage that refuses to be compiled. -/
def refusedDocument : Text := "#section compute\n#error no".toList

private theorem compile_overfullDocument (registry : Registry) (options : CompileOptions) :
    (compile overfullDocument registry options).run.value =
      .error (.packedOverflow "g" "b" 2 1) := by
  have failed : (Definition.ofDocument overfullDocument).run.value =
      .error (.packedOverflow "g" "b" 2 1) :=
    Preprocessor.error_of_fault? (by decide +kernel)
  rw [compile, value_run_bind, failed]

private theorem compile_refusedDocument (registry : Registry) :
    (compile refusedDocument registry ⟨.std140, .empty, none⟩).run.value =
      .error (.errorDirective "compute" 1 "no") := by
  let source : Text := "#error no".toList
  let definition : Definition := { Definition.empty with compute := some source }
  have read : (Definition.ofDocument refusedDocument).run.value = .ok definition :=
    ok_of_toOption (by decide +kernel)
  have plain : Include.Plain source := by decide +kernel
  have same : Include.resolved source = source := by decide +kernel
  have fails : ((⟨.compute, source⟩ : Stage).preprocess .empty registry none).value =
      (.error (.errorDirective "compute" 1 "no"), registry) := by
    simp only [Stage.preprocess, value_bind, Preprocessor.run, Include.value_expand plain,
      value_pure, same, Preprocessor.value_conditionals, Conditional.Pass.result_text]
    rfl
  have stages : (preprocessStages .empty none registry [⟨.compute, source⟩]).value =
      (.error (.errorDirective "compute" 1 "no"), registry) := by
    rw [preprocessStages, value_bind, fails]
    rfl
  have staged : (preprocessStages .empty none registry [⟨.compute, source⟩] :
      Attempt _).run.value = .ok (.error (.errorDirective "compute" 1 "no"), registry) :=
    congrArg Except.ok stages
  have programmed : (programOf definition .empty).run.value =
      .ok (⟨.empty, .empty, .empty, [⟨.compute, source⟩]⟩, .empty) := rfl
  have laid : (layoutOf .empty ⟨.empty, .empty, .empty, [⟨.compute, source⟩]⟩ :
      Attempt _).run.value = .ok (none, .empty) := rfl
  rw [compile, value_run_bind, read]
  dsimp only
  rw [assemble, value_run_bind, programmed]
  dsimp only
  rw [value_run_bind, laid]
  dsimp only
  rw [value_run_bind, staged]
  rfl

theorem compile_errors_refused :
    let options : CompileOptions := ⟨.std140, .empty, none⟩
    let overfull := (compile overfullDocument (.ofTexts []) options).run
    let refused := (compile refusedDocument (.ofTexts []) options).run
    let huge := (compile hugeDocument (.ofTexts []) options).run
    overfull.value = .error (.packedOverflow "g" "b" 2 1) ∧
      (errors overfull.log).map Record.text =
        ["Packed group 'g': field 'b' needs 2 bits, only 1 left"] ∧
      refused.value = .error (.errorDirective "compute" 1 "no") ∧
      refused.log.getLast? = some (.failure (.errorDirective "compute" 1 "no")) ∧
      (errors refused.log).map Record.text = ["compute:1: #error no"] ∧
      errors huge.log = [] := by
  intro options overfull refused huge
  have large := compile_overfullDocument (.ofTexts []) options
  have refuses := compile_refusedDocument (.ofTexts [])
  obtain ⟨pipeline, done, -⟩ := compile_hugeDocument (.ofTexts [])
  have ofOverfull := compile_errors overfullDocument (.ofTexts []) options
  have ofRefused := compile_errors refusedDocument (.ofTexts []) options
  have ofHuge := compile_errors hugeDocument (.ofTexts []) options
  exact ⟨large, ofOverfull.2.2.1 _ _ _ _ large, refuses, (ofRefused.2.1 _ refuses).2,
    ofRefused.2.2.2 _ _ _ refuses, ofHuge.1 _ done⟩

end Pipeline
end ShaderPipeline
