import ShaderPipeline.Proofs.Logged
import ShaderPipeline.Proofs.Vertex.Operations

/-! Calls on a builder one after another. They work on it in place, also where they fail, and each
leaves the builder that its step gives. -/

namespace ShaderPipeline

/-- A method works on a state in place. Where it fails, the state stays as the method left it. -/
abbrev Method (σ α : Type) := ExceptT Fault (StateT σ Logged) α

/-- Ends in `fault` and leaves its record. -/
def Method.fail (fault : Fault) : Method σ α :=
  ExceptT.mk fun state => ⟨(.error fault, state), [.failure fault]⟩

/-- The answer and the state of a method that answers with the new state, or fails before it has
changed anything. -/
def Method.outcome (state : σ) : Except Fault σ → Except Fault Unit × σ
  | .ok next => (.ok (), next)
  | .error fault => (.error fault, state)

theorem Method.run_get_bind (state : σ) (next : σ → Method σ α) :
    (get >>= next).run.run state = (next state).run.run state :=
  Logged.ext rfl (Logged.joinLogs_eq_append [] _)

namespace Vertex

/-- Appends a field to the group where it lies. -/
def PackedGroup.pushInPlace (name : String) (scalar : Scalar) (count bits : Nat) :
    Method PackedGroup Unit := do
  let group ← get
  let requested := requestedBits count bits
  if requested > group.availableBits then
    Method.fail (.packedOverflow group.name name requested group.availableBits)
  else
    let field : PackedField := ⟨name, scalar, count, bits, group.usedBits⟩
    set { group with fields := group.fields ++ [field] }

theorem PackedGroup.run_pushInPlace (group : PackedGroup) (name : String) (scalar : Scalar)
    (count bits : Nat) :
    (pushInPlace name scalar count bits).run.run group =
      Method.outcome group <$> (group.push name scalar count bits).run := by
  rw [pushInPlace, Method.run_get_bind, push]
  by_cases large : requestedBits count bits > group.availableBits
  · simp only [large, ↓reduceIte]
    rfl
  · simp only [large, ↓reduceIte]
    rfl

namespace Builder

/-- Works on the open group where it lies in the builder. -/
def onGroup (group : PackedGroup) (method : Method PackedGroup Unit) : Method Builder Unit :=
  ExceptT.mk fun builder => do
    let (answer, group) ← method.run.run group
    return (answer, { builder with group? := some group })

/-- Adds a field to the open group in place. -/
def fieldInPlace (name : String) (scalar : Scalar) (count bits : Nat) : Method Builder Unit := do
  let builder ← get
  if bits = 0 then liftM (warn (.zeroWidth name))
  else match builder.group? with
    | none => liftM (warn (.fieldOutsideGroup name))
    | some group =>
      if builder.isDeclared name || (group.field? name).isSome then
        liftM (warn (.duplicate name))
      else onGroup group (PackedGroup.pushInPlace name scalar count bits)

theorem run_fieldInPlace (builder : Builder) (name : String) (scalar : Scalar)
    (count bits : Nat) :
    (fieldInPlace name scalar count bits).run.run builder =
      Method.outcome builder <$> (builder.addPackedField name scalar count bits).run := by
  rw [fieldInPlace, Method.run_get_bind, addPackedField]
  by_cases zero : bits = 0
  · simp only [zero, ↓reduceIte]
    rfl
  · simp only [zero, ↓reduceIte]
    cases opened : builder.group? with
    | none => rfl
    | some group =>
      dsimp only
      split
      · rfl
      · have same : { builder with group? := some group } = builder := by rw [← opened]
        have inner :
            (onGroup group (PackedGroup.pushInPlace name scalar count bits)).run.run builder =
            (PackedGroup.pushInPlace name scalar count bits).run.run group >>= fun outcome =>
              pure (outcome.1, { builder with group? := some outcome.2 }) := rfl
        rw [inner, PackedGroup.run_pushInPlace]
        apply Logged.ext
        · simp only [ExceptT.run_bind, Logged.value_bind, Logged.value_map]
          cases (group.push name scalar count bits).run.value with
          | ok next => rfl
          | error fault => exact congrArg (fun kept => (Except.error fault, kept)) same
        · simp only [ExceptT.run_bind, Logged.log_bind, Logged.log_map]
          cases (group.push name scalar count bits).run.value <;> simp

/-! ### Sessions -/

/-- What a call answers. -/
inductive Answer where
  | done
  /-- The name of the group that has been opened. -/
  | opened (name? : Option String)
  /-- Whether the group that has been closed got an attribute. -/
  | closed (placed : Bool)
  deriving DecidableEq, Repr

/-- Makes a call in place. -/
def perform (builder : Builder) : Operation → Logged (Except Fault Answer × Builder)
  | .add name format => do return (.ok .done, ← builder.add name format)
  | .beginPacked name? => do
    let next ← builder.beginPacked name?
    return (.ok (.opened (next.group?.map PackedGroup.name)), next)
  | .addPackedField name scalar count bits => do
    let (answer, next) ← (fieldInPlace name scalar count bits).run.run builder
    return (answer.map fun () => .done, next)
  | .endPacked => do
    let (placed, next) ← builder.endPacked
    return (.ok (.closed placed), next)
  | .discardPacked => return (.ok .done, builder.discardPacked)

/-- Makes calls in order. A call that fails does not end them. -/
def session (builder : Builder) :
    List Operation → Logged (List (Except Fault Answer) × Builder)
  | [] => return ([], builder)
  | operation :: rest => do
    let (answer, next) ← builder.perform operation
    let (answers, last) ← next.session rest
    return (answer :: answers, last)

private theorem value_perform_field (builder : Builder) (name : String) (scalar : Scalar)
    (count bits : Nat) :
    (builder.perform (.addPackedField name scalar count bits)).value =
      let outcome :=
        Method.outcome builder (builder.addPackedField name scalar count bits).run.value
      (outcome.1.map fun () => .done, outcome.2) := by
  rw [perform, run_fieldInPlace, Logged.value_bind, Logged.value_map]
  rfl

/-- A call leaves the builder that its step gives. -/
theorem step_eq_perform (builder : Builder) (operation : Operation) :
    (builder.perform operation).value.2 = builder.step operation := by
  cases operation with
  | addPackedField name scalar count bits =>
    rw [value_perform_field, step]
    cases (builder.addPackedField name scalar count bits).run.value <;> rfl
  | _ => rfl

theorem session_append (builder : Builder) (first second : List Operation) :
    let earlier := builder.session first
    let later := (builder.steps first).session second
    builder.session (first ++ second) =
      ⟨(earlier.value.1 ++ later.value.1, later.value.2), earlier.log ++ later.log⟩ := by
  induction first generalizing builder with
  | nil => rfl
  | cons operation rest ih =>
    have next : builder.steps (operation :: rest) = (builder.step operation).steps rest := rfl
    have whole := ih (builder.step operation)
    rw [← step_eq_perform] at whole next
    apply Logged.ext
    · simp [session, whole, next]
    · simp [session, whole, next]

end Builder

end Vertex

end ShaderPipeline
