import ShaderPipeline.Proofs.Vertex.Sessions
import ShaderPipeline.Proofs.Vertex.Steps

/-! Calls that a builder turns down. One that is turned down leaves everything as it was: whatever
is called afterwards answers as if it had not been made. -/

namespace ShaderPipeline.Vertex.Builder

/-- The field has a width and a free name, and asks for more bits than the open group has left. -/
inductive Overfills (builder : Builder) : Operation → Fault → Prop
  | field {group : PackedGroup} {name : String} {scalar : Scalar} {count bits : Nat}
      (opened : builder.group? = some group) (wide : bits ≠ 0)
      (free : builder.isDeclared name = false) (fresh : group.field? name = none)
      (large : group.availableBits < min (bits * count) wordMax) :
      Overfills builder (.addPackedField name scalar count bits)
        (.packedOverflow group.name name (min (bits * count) wordMax) group.availableBits)

/-- What a call that is turned down answers and records: a warning, or the fault of a field for
which the open group has no room. -/
inductive Refusal (builder : Builder) (operation : Operation) :
    Except Fault Answer → Record → Prop
  | warned (problem : Problem) (fits : ∀ fault, ¬ builder.Overfills operation fault) :
      Refusal builder operation (.ok .done) (.warning problem.message)
  | failed {fault : Fault} (overfills : builder.Overfills operation fault) :
      Refusal builder operation (.error fault) (.failure fault)

/-- A call that leaves the builder as it was. -/
def TurnsDown (builder : Builder) (operation : Operation) : Prop :=
  ∃ answer record, builder.Refusal operation answer record ∧
    builder.perform operation = ⟨(answer, builder), [record]⟩

private theorem turnsDown_add {builder : Builder} {name : String} {format : Format}
    (rejects : builder.Rejects (.add name format)) : builder.TurnsDown (.add name format) := by
  by_cases packing : builder.isPacking = true
  · refine ⟨_, _, .warned (.attributeInGroup name) nofun, ?_⟩
    rw [perform, add, if_pos packing]
    rfl
  · have declared : builder.isDeclared name = true := by
      cases rejects with
      | inGroup packed => exact absurd packed packing
      | declared taken => exact taken
    refine ⟨_, _, .warned (.duplicate name) nofun, ?_⟩
    rw [perform, add, if_neg packing, if_pos declared]
    rfl

private theorem turnsDown_addPackedField {builder : Builder} {name : String} {scalar : Scalar}
    {count bits : Nat} (rejects : builder.Rejects (.addPackedField name scalar count bits)) :
    builder.TurnsDown (.addPackedField name scalar count bits) := by
  by_cases zero : bits = 0
  · refine ⟨_, _, .warned (.zeroWidth name) fun fault overfills => ?_, ?_⟩
    · cases overfills with
      | field opened wide free fresh large => exact wide zero
    · rw [perform, run_fieldInPlace, addPackedField, if_pos zero]
      rfl
  · cases opened : builder.group? with
    | none =>
      refine ⟨_, _, .warned (.fieldOutsideGroup name) fun fault overfills => ?_, ?_⟩
      · cases overfills with
        | field other wide free fresh large => simp [opened] at other
      · rw [perform, run_fieldInPlace, addPackedField, if_neg zero, opened]
        rfl
    | some group =>
      by_cases taken : (builder.isDeclared name || (group.field? name).isSome) = true
      · refine ⟨_, _, .warned (.duplicate name) fun fault overfills => ?_, ?_⟩
        · cases overfills with
          | field other wide free fresh large =>
            obtain rfl := Option.some.inj (opened.symm.trans other)
            simp [free, fresh] at taken
        · rw [perform, run_fieldInPlace, addPackedField, if_neg zero, opened]
          simp only [taken, ↓reduceIte]
          rfl
      · obtain ⟨free, fresh⟩ : builder.isDeclared name = false ∧ group.field? name = none := by
          simpa using taken
        have large : group.availableBits < bits * count := by
          cases rejects with
          | zeroWidth => exact absurd rfl zero
          | outside shut => simp [opened] at shut
          | fieldDeclared declared => simp [free] at declared
          | repeated other present =>
            obtain rfl := Option.some.inj (opened.symm.trans other)
            simp [fresh] at present
          | overfull other large =>
            obtain rfl := Option.some.inj (opened.symm.trans other)
            exact large
        have small : group.availableBits ≤ groupBits := Nat.sub_le _ _
        have requested : group.availableBits < min (bits * count) wordMax := by
          simp only [groupBits, wordMax] at small ⊢
          omega
        refine ⟨_, _, .failed (.field opened zero free fresh requested), ?_⟩
        rw [perform, run_fieldInPlace, addPackedField, if_neg zero, opened]
        simp only [taken, Bool.false_eq_true, ↓reduceIte, PackedGroup.push,
          PackedGroup.requestedBits, requested]
        rfl

private theorem turnsDown_of_rejects {builder : Builder} {operation : Operation}
    (rejects : builder.Rejects operation) : builder.TurnsDown operation := by
  cases operation with
  | add name format => exact turnsDown_add rejects
  | addPackedField name scalar count bits => exact turnsDown_addPackedField rejects
  | beginPacked name? => cases rejects
  | endPacked => cases rejects
  | discardPacked => cases rejects

private theorem step_of_rejects {builder : Builder} {operation : Operation}
    (rejects : builder.Rejects operation) : builder.step operation = builder := by
  obtain ⟨answer, record, _, made⟩ := turnsDown_of_rejects rejects
  rw [← step_eq_perform, made]

/-- A call that is turned down answers and records a refusal and leaves the whole builder as it was.
Whatever calls follow, they answer, record and declare what they do without it. -/
theorem rejected_call_changes_nothing (before : List Operation) {operation : Operation}
    (rejects : (empty.steps before).Rejects operation) :
    let builder := empty.steps before
    ∃ answer record, builder.Refusal operation answer record ∧
      builder.perform operation = ⟨(answer, builder), [record]⟩ ∧
      ∀ after : List Operation,
        let earlier := empty.session before
        let later := builder.session after
        empty.session (before ++ after) =
          ⟨(earlier.value.1 ++ later.value.1, later.value.2), earlier.log ++ later.log⟩ ∧
        empty.session (before ++ operation :: after) =
          ⟨(earlier.value.1 ++ answer :: later.value.1, later.value.2),
            earlier.log ++ record :: later.log⟩ ∧
        layoutOf (before ++ operation :: after) = layoutOf (before ++ after) := by
  intro builder
  obtain ⟨answer, record, refusal, made⟩ := turnsDown_of_rejects rejects
  refine ⟨answer, record, refusal, made, fun after => ⟨session_append _ _ _, ?_, ?_⟩⟩
  · have next : builder.session (operation :: after) =
        ⟨(answer :: (builder.session after).value.1, (builder.session after).value.2),
          record :: (builder.session after).log⟩ := by
      rw [session, made]
      exact Logged.ext rfl (Logged.joinLogs_eq_append [record] _)
    rw [session_append, next]
  · have same := step_of_rejects rejects
    simp only [layoutOf, steps, List.foldl_append, List.foldl_cons]
    exact congrArg (fun last : Builder => (last.steps after).build.value) same

/-- A group with two fields of four bits, and one of thirty bits that it has no room for. -/
def narrowCalls : List Operation :=
  [.beginPacked (some "bits"), .addPackedField "flags" .byte 1 4, .addPackedField "kind" .byte 1 4]

theorem rejected_call_changes_nothing_overfull :
    let builder := empty.steps narrowCalls
    let operation : Operation := .addPackedField "extra" .int 1 30
    builder.Rejects operation ∧
      ∃ answer record, builder.Refusal operation answer record ∧
        answer = .error (.packedOverflow "bits" "extra" 30 24) ∧
        builder.perform operation = ⟨(answer, builder), [record]⟩ ∧
        layoutOf (narrowCalls ++ operation :: [.addPackedField "more" .int 1 24, .endPacked]) =
          layoutOf (narrowCalls ++ [.addPackedField "more" .int 1 24, .endPacked]) := by
  intro builder operation
  have rejects : builder.Rejects operation :=
    .overfull (show builder.group? = some
      ⟨"bits", [⟨"flags", .byte, 1, 4, 0⟩, ⟨"kind", .byte, 1, 4, 4⟩]⟩ from rfl) (by decide)
  obtain ⟨answer, record, refusal, made, continues⟩ := rejected_call_changes_nothing _ rejects
  have failed : (builder.perform operation).value.1 =
      .error (.packedOverflow "bits" "extra" 30 24) := rfl
  refine ⟨rejects, answer, record, refusal, ?_, made, (continues _).2.2⟩
  rw [made] at failed
  exact failed

end ShaderPipeline.Vertex.Builder
