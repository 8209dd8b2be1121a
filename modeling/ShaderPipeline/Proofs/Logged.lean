import ShaderPipeline.Log

/-! What logged computations answer, apart from their records, and what holds of all their
records. -/

namespace ShaderPipeline.Logged

@[simp] theorem value_map (f : α → β) (logged : Logged α) :
    (f <$> logged).value = f logged.value := by
  rw [map_eq_pure_bind]
  rfl

@[simp] theorem log_map (f : α → β) (logged : Logged α) : (f <$> logged).log = logged.log := by
  rw [map_eq_pure_bind, log_bind, log_pure, List.append_nil]

@[simp] theorem value_run_pure (answer : α) :
    (pure answer : ExceptT ε Logged α).run.value = .ok answer := rfl

@[simp] theorem value_run_liftM (logged : Logged α) :
    (liftM logged : ExceptT ε Logged α).run.value = .ok logged.value := rfl

@[simp] theorem value_run_ite (condition : Prop) [Decidable condition]
    (first second : ExceptT ε Logged α) :
    (if condition then first else second).run.value =
      if condition then first.run.value else second.run.value := by
  split <;> rfl

/-- A computation that cannot fail, made where there is something to make it of. -/
theorem value_run_mapM_liftM (next : α → Logged β) (given? : Option α) :
    (given?.mapM fun given => (liftM (next given) : ExceptT ε Logged β)).run.value =
      .ok (given?.map fun given => (next given).value) := by
  cases given? <;> rfl

/-- A computation that can fail goes on with the answer of the one before it. -/
theorem value_run_bind (first : ExceptT ε Logged α) (next : α → ExceptT ε Logged β) :
    (first >>= next).run.value =
      match first.run.value with
      | .ok answer => (next answer).run.value
      | .error fault => .error fault := by
  rw [ExceptT.run_bind, value_bind]
  cases first.run.value <;> rfl

theorem of_bind_ok {first : ExceptT ε Logged α} {next : α → ExceptT ε Logged β} {answer : β}
    (done : (first >>= next).run.value = .ok answer) :
    ∃ middle, first.run.value = .ok middle ∧ (next middle).run.value = .ok answer := by
  rw [value_run_bind] at done
  cases value : first.run.value with
  | ok middle => exact ⟨middle, rfl, by simpa only [value] using done⟩
  | error fault => rw [value] at done; cases done

theorem of_bind_error {first : ExceptT ε Logged α} {next : α → ExceptT ε Logged β} {fault : ε}
    (failed : (first >>= next).run.value = .error fault) :
    first.run.value = .error fault ∨
      ∃ middle, first.run.value = .ok middle ∧ (next middle).run.value = .error fault := by
  rw [value_run_bind] at failed
  cases value : first.run.value with
  | ok middle => exact .inr ⟨middle, rfl, by simpa only [value] using failed⟩
  | error other =>
    rw [value] at failed
    cases failed
    exact .inl rfl

/-! ### Records -/

/-- Only records with the property are left. -/
def Leaves (Property : Record → Prop) (logged : Logged α) : Prop :=
  ∀ record ∈ logged.log, Property record

variable {Property : Record → Prop}

@[simp] theorem leaves_pure (value : α) : (pure value : Logged α).Leaves Property := by
  simp [Leaves]

@[simp] theorem leaves_warn {message : String} :
    (warn message).Leaves Property ↔ Property (.warning message) := by
  simp [Leaves, warn]

@[simp] theorem leaves_bind {first : Logged α} {next : α → Logged β} :
    (first >>= next).Leaves Property ↔
      first.Leaves Property ∧ (next first.value).Leaves Property := by
  simp [Leaves, or_imp, forall_and]

@[simp] theorem leaves_map {f : α → β} {logged : Logged α} :
    (f <$> logged).Leaves Property ↔ logged.Leaves Property := by
  simp [Leaves]

@[simp] theorem leaves_ite {condition : Prop} [Decidable condition] {first second : Logged α} :
    (if condition then first else second).Leaves Property ↔
      (condition → first.Leaves Property) ∧ (¬ condition → second.Leaves Property) := by
  split <;> simp_all

end ShaderPipeline.Logged
