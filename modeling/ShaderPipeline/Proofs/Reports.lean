import ShaderPipeline.Proofs.Logged

/-! Errors in the log. A computation that only warns is quiet. One that ends in a fault reports it:
the fault is its last record, and all records before it are warnings. -/

namespace ShaderPipeline

namespace Record

/-- The record stands in the log as an error. -/
def isError : Record → Bool
  | .warning _ => false
  | .failure _ => true

/-- The record's line in the log. -/
def text : Record → String
  | .warning message => message
  | .failure fault => fault.report

end Record

namespace Logged

/-- Nothing is recorded but warnings. -/
def Quiet (logged : Logged α) : Prop := ∀ record ∈ logged.log, record.isError = false

@[simp] theorem quiet_pure (value : α) : (pure value : Logged α).Quiet := leaves_pure value

@[simp] theorem quiet_warn (message : String) : (warn message).Quiet := leaves_warn.mpr rfl

@[simp] theorem quiet_bind {first : Logged α} {next : α → Logged β} :
    (first >>= next).Quiet ↔ first.Quiet ∧ (next first.value).Quiet := leaves_bind

@[simp] theorem quiet_map {f : α → β} {logged : Logged α} :
    (f <$> logged).Quiet ↔ logged.Quiet := leaves_map

@[simp] theorem quiet_ite {condition : Prop} [Decidable condition] {first second : Logged α} :
    (if condition then first else second).Quiet ↔
      (condition → first.Quiet) ∧ (¬ condition → second.Quiet) := leaves_ite

/-- The records are those of a computation with the given outcome: warnings, and behind them the
fault if there is one. -/
def Reports (logged : Logged α) : Except Fault β → Prop
  | .ok _ => logged.Quiet
  | .error fault => ∃ warnings, logged.log = warnings ++ [.failure fault] ∧
      ∀ record ∈ warnings, record.isError = false

private theorem reports_map {f : α → β} {logged : Logged α} {outcome : Except Fault γ} :
    (f <$> logged).Reports outcome ↔ logged.Reports outcome := by
  cases outcome <;> simp [Reports, Quiet]

theorem reports_outcome_map {logged : Logged α} {outcome : Except Fault β} {f : β → γ} :
    logged.Reports (outcome.map f) ↔ logged.Reports outcome := by
  cases outcome <;> exact Iff.rfl

theorem Quiet.reports_bind {first : Logged α} {next : α → Logged β} {outcome : Except Fault γ}
    (quiet : first.Quiet) (rest : (next first.value).Reports outcome) :
    (first >>= next).Reports outcome := by
  cases outcome with
  | ok value => exact quiet_bind.mpr ⟨quiet, rest⟩
  | error fault =>
    obtain ⟨warnings, log, silent⟩ := rest
    refine ⟨first.log ++ warnings, by rw [log_bind, log, List.append_assoc], ?_⟩
    exact List.forall_mem_append.mpr ⟨quiet, silent⟩

/-- What goes on after an outcome without a fault reports its own; a fault is passed on, and
nothing more is recorded. -/
theorem Reports.bind {first : Logged α} {next : α → Logged β} {outcome : Except Fault γ}
    {last : Except Fault δ} (reports : first.Reports outcome)
    (follows : ∀ answer, outcome = .ok answer → (next first.value).Reports last)
    (ends : ∀ fault, outcome = .error fault → (next first.value).log = [] ∧ last = .error fault) :
    (first >>= next).Reports last := by
  cases outcome with
  | ok answer => exact Quiet.reports_bind reports (follows answer rfl)
  | error fault =>
    obtain ⟨silent, rfl⟩ := ends fault rfl
    obtain ⟨warnings, log, quiet⟩ := reports
    exact ⟨warnings, by rw [log_bind, silent, List.append_nil, log], quiet⟩

/-- What only passes on an outcome records nothing more. -/
theorem Reports.bind_pure {first : Logged α} {outcome : Except Fault γ}
    (reports : first.Reports outcome) (next : α → β) :
    (first >>= fun answer => (pure (next answer) : Logged β)).Reports outcome := by
  rw [← map_eq_pure_bind]
  exact reports_map.mpr reports

end Logged

open Logged

/-- The computation reports its fault, or is quiet if it has none. -/
def Attempt.Reported (attempt : Attempt α) : Prop := attempt.run.Reports attempt.run.value

namespace Attempt

@[simp] theorem reported_pure (answer : α) : Reported (pure answer) := quiet_pure _

@[simp] theorem reported_fail (fault : Fault) : Reported (fail fault : Attempt α) :=
  ⟨[], rfl, by simp⟩

@[simp] theorem reported_liftM {logged : Logged α} :
    Reported (liftM logged : Attempt α) ↔ logged.Quiet := quiet_map

theorem reported_bind {first : Attempt α} {next : α → Attempt β} (reported : Reported first)
    (follows : ∀ answer, first.run.value = .ok answer → Reported (next answer)) :
    Reported (first >>= next) := by
  rw [Reported, ExceptT.run_bind]
  refine reported.bind (fun answer value => ?_) fun fault value => ?_
  · rw [value_bind, value]
    exact follows answer value
  · rw [value_bind, value]
    exact ⟨rfl, rfl⟩

/-- A quiet computation in front leaves no errors of its own. -/
theorem reported_liftM_bind {first : Logged α} {next : α → Attempt β} (quiet : first.Quiet)
    (rest : Reported (next first.value)) : Reported (liftM first >>= next) :=
  reported_bind (reported_liftM.mpr quiet) fun _ same => by
    cases same
    exact rest

/-- A computation whose answer holds an outcome reports it, if a fault in it ends all. -/
theorem reported_of_reports {first : Logged α} {next : α → Attempt β} {outcome : Except Fault γ}
    (reports : first.Reports outcome)
    (follows : ∀ answer, outcome = .ok answer → Reported (next first.value))
    (ends : ∀ fault, outcome = .error fault → next first.value = throw fault) :
    Reported (liftM first >>= next) := by
  have run : (liftM first >>= next : Attempt β).run = first >>= fun answer => (next answer).run :=
    bind_map_left Except.ok first _
  rw [Reported, run]
  refine reports.bind follows fun fault failed => ?_
  rw [value_bind, ends fault failed]
  exact ⟨rfl, rfl⟩

/-- A quiet computation in front, made in some cases only. -/
theorem reported_when {condition : Prop} [Decidable condition] {first : Logged Unit}
    {rest : Unit → Attempt α} (quiet : first.Quiet) (reported : Reported (rest ())) :
    Reported (if condition then liftM first >>= rest else rest ()) := by
  split
  · exact reported_liftM_bind quiet reported
  · exact reported

theorem reported_mapM {read : α → Attempt β} {given? : Option α}
    (each : ∀ given ∈ given?, Reported (read given)) : Reported (given?.mapM read) := by
  cases given? with
  | none => exact reported_pure none
  | some given =>
    exact reported_bind (each given rfl) fun answer _ => reported_pure (some answer)

end Attempt
end ShaderPipeline
