import ShaderPipeline.Proofs.Vertex.Declarations
import ShaderPipeline.Proofs.Vertex.GroupCounts

/-! The place of calls on a builder. A call that is made in its place is not reported as misplaced,
and tells whether a group is open behind it. -/

namespace ShaderPipeline.Vertex

/-- Attributes and groups begin outside of a group. Fields belong inside of one, and only there is a
group to close or to discard. -/
def Operation.InPlace (builder : Builder) : Operation → Prop
  | .add _ _ | .beginPacked _ => builder.isPacking = false
  | .addPackedField _ _ _ _ | .endPacked | .discardPacked => builder.isPacking = true

/-- Whether a group is open behind a call in its place. -/
def Operation.leavesOpen : Operation → Bool
  | .beginPacked _ | .addPackedField _ _ _ _ => true
  | .add _ _ | .endPacked | .discardPacked => false

instance (builder : Builder) : DecidablePred (Operation.InPlace builder)
  | .add _ _ | .beginPacked _ => inferInstanceAs (Decidable (_ = false))
  | .addPackedField _ _ _ _ | .endPacked | .discardPacked => inferInstanceAs (Decidable (_ = true))

namespace Builder

/-- Makes a call and leaves its records. -/
def invoke (builder : Builder) : Operation → Attempt Builder
  | .add name format => builder.add name format
  | .beginPacked name? => builder.beginPacked name?
  | .addPackedField name scalar count bits => builder.addPackedField name scalar count bits
  | .endPacked => Prod.snd <$> builder.endPacked
  | .discardPacked => return builder.discardPacked

theorem value_invoke (builder : Builder) (operation : Operation) :
    (builder.invoke operation).run.value = builder.call operation := by
  cases operation <;> rfl

/-- The calls are made in their place, one after the other, and none behind a fault. -/
def InOrder (builder : Builder) : List Operation → Prop
  | [] => True
  | operation :: rest =>
    operation.InPlace builder ∧
      match builder.call operation with
      | .ok next => next.InOrder rest
      | .error _ => rest = []

instance decidableInOrder (builder : Builder) :
    (operations : List Operation) → Decidable (builder.InOrder operations)
  | [] => inferInstanceAs (Decidable True)
  | operation :: rest =>
    have : Decidable (match builder.call operation with
        | .ok next => next.InOrder rest
        | .error _ => rest = []) :=
      match builder.call operation with
      | .ok next => next.decidableInOrder rest
      | .error _ => inferInstanceAs (Decidable (rest = []))
    inferInstanceAs (Decidable (_ ∧ _))

theorem inOrder_singleton {builder : Builder} {operation : Operation}
    (inPlace : operation.InPlace builder) : builder.InOrder [operation] := by
  refine ⟨inPlace, ?_⟩
  cases builder.call operation with
  | ok next => trivial
  | error fault => rfl

/-- Calls behind others are in order if they are for the builder that the others lead to. -/
theorem InOrder.append {builder : Builder} {first second : List Operation}
    (here : builder.InOrder first)
    (after : match builder.calls first with
      | .ok next => next.InOrder second
      | .error _ => second = []) :
    builder.InOrder (first ++ second) := by
  induction first generalizing builder with
  | nil => exact after
  | cons operation rest ih =>
    obtain ⟨inPlace, others⟩ := here
    refine ⟨inPlace, ?_⟩
    rw [calls] at after
    cases called : builder.call operation with
    | ok next =>
      rw [called] at others after
      exact ih others after
    | error fault =>
      rw [called] at others after
      exact List.append_eq_nil_iff.mpr ⟨others, after⟩

example : empty.InOrder [.beginPacked none, .addPackedField "a" .int 1 8, .endPacked] ∧
    ¬ empty.InOrder [.beginPacked none, .beginPacked none] := by
  decide

theorem isPacking_of_call {builder next : Builder} {operation : Operation}
    (inPlace : operation.InPlace builder) (called : builder.call operation = .ok next) :
    next.isPacking = operation.leavesOpen := by
  cases operation with
  | add name format =>
    rw [← step_of_call called]
    exact isPacking_add inPlace name format
  | beginPacked name? =>
    rw [← step_of_call called]
    exact isPacking_beginPacked builder name?
  | addPackedField name scalar count bits =>
    exact (builder.of_addPackedField called).1.trans inPlace
  | endPacked =>
    rw [← step_of_call called]
    exact isPacking_endPacked builder
  | discardPacked =>
    cases called
    rfl

/-! ### Messages -/

/-- Problems of calls that are not in their place. -/
def Problem.isMisplacement : Problem → Bool
  | .attributeInGroup _ | .unclosed _ | .fieldOutsideGroup _ | .noGroup => true
  | .duplicate _ | .zeroWidth _ | .emptyGroup _ => false

/-- How the messages of such problems end, and how all others do. -/
def Problem.endings : (isMisplacement : Bool) → List Text
  | true => ["group, ignored".toList, "discarded".toList, "to close".toList]
  | false => ["', ignored".toList, "width, ignored".toList, "allocated".toList]

theorem Problem.exists_ending (problem : Problem) :
    ∃ ending ∈ endings problem.isMisplacement, ending <:+ problem.message.toList := by
  have within {ending : Text} (start tail : String) (last : ending <:+ tail.toList) :
      ending <:+ (start ++ tail).toList := by
    rw [String.toList_append]
    exact last.trans (List.suffix_append _ _)
  cases problem with
  | attributeInGroup name => exact ⟨_, .head _, within _ _ (by decide)⟩
  | unclosed group => exact ⟨_, .tail _ (.head _), within _ _ (by decide)⟩
  | fieldOutsideGroup name => exact ⟨_, .head _, within _ _ (by decide)⟩
  | noGroup => exact ⟨_, .tail _ (.tail _ (.head _)), by decide⟩
  | duplicate name => exact ⟨_, .head _, within _ _ (by decide)⟩
  | zeroWidth name => exact ⟨_, .tail _ (.head _), within _ _ (by decide)⟩
  | emptyGroup group => exact ⟨_, .tail _ (.tail _ (.head _)), within _ _ (by decide)⟩

/-- No message of a misplaced call is one of another problem. -/
theorem Problem.message_ne {problem other : Problem} (misplaced : problem.isMisplacement = true)
    (placed : other.isMisplacement = false) : problem.message ≠ other.message := by
  -- Any name may stand in a message, but none of the endings is part of another.
  have apart : ∀ ending ∈ endings true, ∀ last ∈ endings false,
      ¬ ending <:+ last ∧ ¬ last <:+ ending := by
    decide
  intro same
  obtain ⟨ending, known, ends⟩ := problem.exists_ending
  obtain ⟨last, other, lasts⟩ := other.exists_ending
  rw [misplaced] at known
  rw [placed] at other
  rw [same] at ends
  exact (List.suffix_or_suffix_of_suffix ends lasts).elim (apart _ known _ other).1
    (apart _ known _ other).2

/-- A message begins as its first part does. -/
theorem head?_toList_append {start : String} {letter : Char}
    (first : start.toList.head? = some letter) (tail : String) :
    (start ++ tail).toList.head? = some letter := by
  rw [String.toList_append, List.head?_append, first]
  rfl

theorem Problem.head?_message (problem : Problem) : problem.message.toList.head? ≠ some 'l' := by
  have begins (letter : Char) {start : String} (first : start.toList.head? = some letter)
      (other : letter ≠ 'l') (middle tail : String) :
      (start ++ middle ++ tail).toList.head? ≠ some 'l' := by
    rw [head?_toList_append (head?_toList_append first middle) tail]
    exact fun same => other (Option.some.inj same)
  cases problem with
  | attributeInGroup name => exact begins 'A' (by decide) (by decide) _ _
  | duplicate name => exact begins 'D' (by decide) (by decide) _ _
  | noGroup => decide
  | unclosed name => exact begins 'P' (by decide) (by decide) _ _
  | zeroWidth name => exact begins 'P' (by decide) (by decide) _ _
  | fieldOutsideGroup name => exact begins 'P' (by decide) (by decide) _ _
  | emptyGroup name => exact begins 'P' (by decide) (by decide) _ _

/-! ### Records -/

/-- The record does not report a call as misplaced. -/
def Blameless (record : Record) : Prop :=
  ∀ problem : Problem, problem.isMisplacement = true → record ≠ .warning problem.message

theorem blameless_of_head? {message : String} (begins : message.toList.head? = some 'l') :
    Blameless (.warning message) := by
  intro problem _ same
  cases same
  exact problem.head?_message begins

private theorem blameless_failure (fault : Fault) : Blameless (.failure fault) := fun _ _ => nofun

private theorem blameless_message_iff {problem : Problem} :
    Blameless (.warning problem.message) ↔ problem.isMisplacement = false := by
  constructor
  · exact fun blameless => Bool.eq_false_iff.mpr fun misplaced => blameless problem misplaced rfl
  · exact fun placed other misplaced same =>
      Problem.message_ne misplaced placed (Record.warning.inj same).symm

@[simp] theorem leaves_warn_iff {problem : Problem} :
    (warn problem).Leaves Blameless ↔ problem.isMisplacement = false :=
  Logged.leaves_warn.trans blameless_message_iff

theorem leaves_build {builder : Builder} (shut : builder.isPacking = false) :
    builder.build.Leaves Blameless := by
  have closed : builder.group? = none := by simpa [isPacking] using shut
  simp [build, dropUnclosed, closed]

/-- A call in its place is not reported as misplaced. -/
theorem leaves_invoke {builder : Builder} {operation : Operation}
    (inPlace : operation.InPlace builder) :
    (builder.invoke operation).run.Leaves Blameless := by
  cases operation with
  | add name format =>
    have shut : builder.isPacking = false := inPlace
    refine Logged.leaves_map.mpr ?_
    simp [add, shut, Problem.isMisplacement]
  | beginPacked name? =>
    have shut : builder.group? = none := by simpa [Operation.InPlace, isPacking] using inPlace
    refine Logged.leaves_map.mpr ?_
    simp [beginPacked, dropUnclosed, shut]
  | addPackedField name scalar count bits =>
    obtain ⟨group, opened⟩ := Option.isSome_iff_exists.mp inPlace
    rw [invoke, addPackedField, opened]
    split
    · simp [Problem.isMisplacement]
    · dsimp only
      split
      · simp [Problem.isMisplacement]
      · rw [PackedGroup.push]
        split
        · exact List.forall_mem_singleton.mpr (blameless_failure _)
        · exact Logged.leaves_pure _
  | endPacked =>
    obtain ⟨group, opened⟩ := Option.isSome_iff_exists.mp inPlace
    have quiet : builder.endPacked.Leaves Blameless := by
      simp [endPacked, opened, Problem.isMisplacement]
    rw [invoke, ExceptT.run_map, Logged.leaves_map]
    exact Logged.leaves_map.mpr quiet
  | discardPacked => exact Logged.leaves_pure _

end Builder
end ShaderPipeline.Vertex
