import ShaderPipeline.Proofs.Memory.Undersized

/-! Layouts that find the struct of every member. A member of an unknown struct is left out with a
warning, so a layout whose log has no such warning has met none, however deep its structs nest. -/

namespace ShaderPipeline

theorem Measured.log_bind (first : Measured α) (next : α → Measured β) :
    (first >>= next).run.log = first.run.log ++
      match first.result with
      | .ok value => (next value).run.log
      | .error _ => [] := by
  rw [ExceptT.run_bind, Logged.log_bind, result]
  cases first.run.value <;> rfl

namespace Memory

open Schema

/-- No member is left out for an unknown struct. -/
def Resolved (measured : Measured α) : Prop :=
  ∀ outer name struct,
    .warning (Problem.unknownStruct outer name struct).message ∉ measured.run.log

theorem Resolved.of_log_nil {measured : Measured α} (quiet : measured.run.log = []) :
    Resolved measured := by
  intro outer name struct
  rw [quiet]
  exact List.not_mem_nil

theorem Resolved.bind {first : Measured α} {next : α → Measured β} (before : Resolved first)
    (after : ∀ value, first.result = .ok value → Resolved (next value)) :
    Resolved (first >>= next) := by
  intro outer name struct
  rw [Measured.log_bind, List.mem_append, not_or]
  refine ⟨before outer name struct, ?_⟩
  cases answer : first.result with
  | ok value => exact after value answer outer name struct
  | error overflow => exact List.not_mem_nil

/-- The two reasons to leave a member out do not read alike. -/
theorem Problem.message_unknownStruct_ne (outer name struct other member : String)
    (length size : Nat) :
    (unknownStruct outer name struct).message ≠ (tooLarge other member length size).message := by
  intro same
  have ends := congrArg (fun message => message.toList.reverse[3]?) same
  simp [message, ToString.toString] at ends

private theorem resolved_tooLarge (outer name : String) (length size : Nat) :
    Resolved (Measured.warn (Problem.tooLarge outer name length size).message) := by
  intro other member struct present
  obtain same := Record.warning.inj (List.mem_singleton.mp present)
  exact Problem.message_unknownStruct_ne other member struct outer name length size same

variable {types : Types} {rule : Rule} {sizes : Nesting}

/-- Members whose types have sizes are placed or too large. -/
theorem resolved_placeFrom (outer : String) {properties : List Property}
    (known : ∀ property ∈ properties, Resolved (elementSize rule sizes property.type) ∧
      (elementSize rule sizes property.type).result ≠ .ok none) (offset : Nat) :
    Resolved (placeFrom outer rule sizes offset properties) := by
  induction properties generalizing offset with
  | nil => exact .of_log_nil rfl
  | cons property rest ih =>
    have others := ih fun other member => known other (List.mem_cons_of_mem property member)
    obtain ⟨resolved, found⟩ := known property List.mem_cons_self
    rw [placeFrom]
    refine resolved.bind fun element? answer => ?_
    cases element? with
    | none => exact absurd answer found
    | some element =>
      dsimp only
      split
      · split
        · refine .bind (.of_log_nil rfl) fun value failed => ?_
          cases failed
        · exact .bind (others _) fun _ _ => .of_log_nil rfl
      · exact .bind (resolved_tooLarge outer property.name property.length element.padded)
          fun _ _ => others offset

private theorem resolved_place (name : String) {properties : List Property}
    (known : ∀ property ∈ properties, Resolved (elementSize rule sizes property.type) ∧
      (elementSize rule sizes property.type).result ≠ .ok none) :
    Resolved (place name properties rule sizes) := by
  refine .bind (resolved_placeFrom name known 0) fun ends _ => ?_
  dsimp only
  split <;> exact .of_log_nil rfl

/-- Members of built-in types, and of declared structs whose own layouts are resolved. -/
theorem resolved_place_of_nested (valid : types.WellFormed) (name : String)
    {properties : List Property} (known : Known types.structs properties)
    (nested : ∀ inner ∈ types.structs, ∀ property ∈ properties,
      property.type = .struct inner.name →
        Resolved (place inner.name inner.properties rule (nesting types rule))) :
    Resolved (place name properties rule (nesting types rule)) := by
  refine resolved_place name fun property member => ?_
  have reached := known property member
  cases type : property.type with
  | value builtIn =>
    refine ⟨.of_log_nil rfl, fun absent => ?_⟩
    cases absent
  | struct struct =>
    rw [type] at reached
    obtain ⟨inner, declared, rfl⟩ := reached
    have resolved := nested inner declared property member type
    constructor
    · rw [elementSize, nesting_declared valid declared]
      exact resolved.bind fun placements _ => .of_log_nil rfl
    · rw [result_elementSize_struct rule valid declared]
      intro absent
      cases outcome : (place inner.name inner.properties rule (nesting types rule)).result <;>
        rw [outcome] at absent <;> cases absent

/-- The layout of a declared struct meets no unknown struct. -/
theorem resolved_declared (rule : Rule) (valid : types.WellFormed) :
    ∀ struct ∈ types.structs,
      Resolved (place struct.name struct.properties rule (nesting types rule)) := by
  refine valid.induction fun struct member inner => ?_
  exact resolved_place_of_nested valid struct.name (valid.known member) inner

theorem resolved_placeStruct (rule : Rule) (valid : types.WellFormed) {struct : Struct}
    (member : struct ∈ types.structs) :
    ∃ layout, placeStruct types rule struct.name = some layout ∧ Resolved layout :=
  ⟨_, placeStruct_declared valid member, resolved_declared rule valid struct member⟩

/-- Nor does the layout of members that name only declared structs. -/
theorem resolved_known (rule : Rule) (valid : types.WellFormed) (name : String)
    {properties : List Property} (known : Known types.structs properties) :
    Resolved (place name properties rule (nesting types rule)) :=
  resolved_place_of_nested valid name known fun inner declared _ _ _ =>
    resolved_declared rule valid inner declared

end Memory

end ShaderPipeline
