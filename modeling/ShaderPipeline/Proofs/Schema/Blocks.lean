import ShaderPipeline.Proofs.Schema.Declared
import ShaderPipeline.Proofs.Schema.UniformsReading

/-! The members of the buffer blocks of a uniforms section are of built-in types or of structs of
the types section. -/

namespace ShaderPipeline.Schema

/-- Every block names only structs that are declared. -/
def Uniforms.WellFormed (types : Types) (uniforms : Uniforms) : Prop :=
  ∀ block ∈ uniforms.buffers, Known types.structs block.properties

/-- The block that a kind of uniform stands for. -/
def UniformKind.block? : UniformKind → Option BufferBlock
  | .buffer block => some block
  | _ => none

theorem Uniforms.WellFormed.add? {types : Types} {uniforms more : Uniforms} {uniform : Uniform}
    (valid : uniforms.WellFormed types)
    (known : ∀ block, uniform.kind.block? = some block → Known types.structs block.properties)
    (added : uniforms.add? uniform = some more) : more.WellFormed types := by
  rw [Uniforms.add?] at added
  split at added
  next => cases added
  next =>
    cases added
    intro block member
    rw [buffers, List.filterMap_append, List.mem_append] at member
    rcases member with old | new
    · exact valid block old
    · refine known block ?_
      cases kind : uniform.kind <;> simp_all [UniformKind.block?]

namespace UniformsReader

variable {types : Types}

private theorem known_addProperty {block more : BufferBlock} {statement : Text}
    (known : Known types.structs block.properties)
    (added : addProperty types block statement = .ok more) :
    Known types.structs more.properties := by
  obtain ⟨_, _, _, _, _, _, _, _, _, _, resolved, _, rfl⟩ := of_addProperty_ok added
  intro property member
  rw [List.mem_append, List.mem_singleton] at member
  rcases member with old | rfl
  · exact known property old
  · exact Types.knownIn_of_resolve? resolved

/-- A uniform outside blocks is none. -/
theorem block?_kind? {line : Nat} {type name : Text} {extra : List Text} {kind : UniformKind}
    (read : (kind? types line type name extra).value = some kind) : kind.block? = none := by
  rcases kind?_cases read with ⟨_, _, _, rfl⟩ | ⟨_, _, rfl⟩ | ⟨_, _, rfl⟩ | ⟨_, rfl⟩
  all_goals rfl

private theorem keeps_known : Keeps types (Uniforms.WellFormed types) fun current =>
    Known types.structs current.block.properties where
  opened _ _ _ := fun _ absent => (nomatch absent)
  added := known_addProperty
  closed valid known _ _ added := by
    refine valid.add? (fun block same => ?_) added
    cases same
    exact known
  declared valid _ _ read added := by
    refine valid.add? (fun block same => ?_) added
    rw [block?_kind? read] at same
    cases same

end UniformsReader

/-- Whatever a uniforms section says, the blocks read of it name only structs that are declared. -/
theorem Uniforms.wellFormed_ofSection (text : Text) (types : Types) :
    (Uniforms.ofSection text types).value.WellFormed types :=
  UniformsReader.keeps_known.ofSection (fun _ absent => (nomatch absent)) text

end ShaderPipeline.Schema
