import ShaderPipeline.Proofs.Schema.ProperTypes
import ShaderPipeline.Proofs.Schema.UniformsReading

/-! What every uniforms section declares: uniforms of distinct names, whose struct types and whose
blocks' struct types are among those of the types section. -/

namespace ShaderPipeline.Schema

/-- A block with members of distinct names, of built-in types or of declared structs. -/
structure BufferBlock.ProperIn (types : Types) (block : BufferBlock) : Prop where
  filled : block.properties ≠ []
  members : ProperMembers types.structs block.properties

/-- What a uniform can bind once the structs are declared. -/
def UniformKind.ProperIn (types : Types) : UniformKind → Prop
  | .value type => type ∈ ValueType.all
  | .struct name => ∃ struct ∈ types.structs, struct.name = name
  | .sampler _ => True
  | .image shape _ => shape ≠ .cube
  | .buffer block => block.ProperIn types

/-- A uniform that can be declared once the structs are. A block is no array and lends its name. -/
structure Uniform.ProperIn (types : Types) (uniform : Uniform) : Prop where
  identifier : Text.isIdentifier uniform.name.toList = true
  positive : 1 ≤ uniform.length
  kind : uniform.kind.ProperIn types
  ofBlock : ∀ block, uniform.kind = .buffer block → uniform.length = 1 ∧ uniform.name = block.name

theorem Uniform.ProperIn.ofBuffer {types : Types} {block : BufferBlock}
    (identifier : Text.isIdentifier block.name.toList = true) (proper : block.ProperIn types) :
    (Uniform.ofBuffer block).ProperIn types where
  identifier := identifier
  positive := Nat.le_refl 1
  kind := proper
  ofBlock other same := by
    cases same
    exact ⟨rfl, rfl⟩

/-- Uniforms of distinct names that can all be declared once the structs are. -/
structure Uniforms.Proper (types : Types) (uniforms : Uniforms) : Prop where
  names : uniforms.names.Nodup
  uniforms : ∀ uniform ∈ uniforms.uniforms, uniform.ProperIn types

theorem Uniforms.Proper.empty (types : Types) : Uniforms.empty.Proper types where
  names := .nil
  uniforms _ absent := nomatch absent

theorem Uniforms.Proper.add? {types : Types} {uniforms more : Uniforms} {uniform : Uniform}
    (proper : uniforms.Proper types) (fits : uniform.ProperIn types)
    (added : uniforms.add? uniform = some more) : more.Proper types := by
  rw [Uniforms.add?] at added
  split at added
  next => cases added
  next absent =>
    cases added
    constructor
    · refine nodup_map_append_singleton proper.names fun other member same => absent ?_
      exact List.find?_isSome.mpr ⟨other, member, by simp [same]⟩
    · intro other member
      rcases List.mem_append.mp member with old | new
      · exact proper.uniforms other old
      · obtain rfl := List.mem_singleton.mp new
        exact fits

theorem Uniforms.Proper.block {types : Types} {uniforms : Uniforms}
    (proper : uniforms.Proper types) {block : BufferBlock} (member : block ∈ uniforms.buffers) :
    block.ProperIn types := by
  obtain ⟨uniform, present, bound⟩ := List.mem_filterMap.mp member
  have kind := (proper.uniforms uniform present).kind
  cases binds : uniform.kind with
  | buffer other =>
    rw [binds] at bound kind
    obtain rfl := Option.some.inj bound
    exact kind
  | value | struct | sampler | image => simp [binds] at bound

/-- A block that is open, as far as its members go. Its name is proper if it is to be kept. -/
structure OpenBlock.Proper (types : Types) (current : OpenBlock) : Prop where
  named : current.valid = true → Text.isIdentifier current.block.name.toList = true
  members : ProperMembers types.structs current.block.properties

namespace UniformsReader

variable {types : Types}

private theorem proper_opened (uniforms : Uniforms) (name : Text) (line : Nat) :
    OpenBlock.Proper types
      ⟨⟨name.string, []⟩, line, (nameProblem? uniforms name).isNone⟩ where
  named valid := by
    rw [Option.isNone_iff_eq_none, nameProblem?] at valid
    split at valid
    next => cases valid
    next identifier =>
      rw [Text.string, String.toList_ofList]
      simpa using identifier
  members := .nil types.structs

private theorem proper_added {current : OpenBlock} {statement : Text} {block : BufferBlock}
    (proper : current.Proper types)
    (added : addProperty types current.block statement = .ok block) :
    OpenBlock.Proper types { current with block } := by
  obtain ⟨type, declarator, name, length, propertyType, size, _, _, suffix, identifier, resolved,
    absent, rfl⟩ := of_addProperty_ok added
  have member := Property.ProperIn.of_read suffix identifier resolved
  exact ⟨proper.named, proper.members.add absent member⟩

private theorem shape_ne_cube {name : String} {shape : TextureShape}
    (read : TextureShape.ofImageName? name = some shape) : shape ≠ .cube := by
  rintro rfl
  unfold TextureShape.ofImageName? at read
  split at read <;> cases read

/-- A uniform outside blocks binds what its type names. -/
theorem proper_kind? {line : Nat} {type name : Text} {extra : List Text} {kind : UniformKind}
    (read : (kind? types line type name extra).value = some kind) : kind.ProperIn types := by
  rcases kind?_cases read with ⟨shape, format, image, rfl⟩ | ⟨shape, _, rfl⟩ |
    ⟨value, builtIn, rfl⟩ | ⟨declared, rfl⟩
  · exact shape_ne_cube image
  · trivial
  · exact List.mem_of_find?_eq_some builtIn
  · obtain ⟨struct, member, same⟩ := List.find?_isSome.mp declared
    exact ⟨struct, member, by simpa using same⟩

private theorem keeps_proper : Keeps types (Uniforms.Proper types) (OpenBlock.Proper types) where
  opened := proper_opened
  added := proper_added
  closed proper held valid filled added :=
    proper.add? (.ofBuffer (held.named valid) ⟨filled, held.members⟩) added
  declared proper suffix identifier read added := by
    refine proper.add? ⟨?_, Text.one_le_of_splitArraySuffix? suffix, proper_kind? read, ?_⟩ added
    · rw [Text.string, String.toList_ofList, identifier]
    · intro block same
      rcases kind?_cases read with ⟨_, _, _, rfl⟩ | ⟨_, _, rfl⟩ | ⟨_, _, rfl⟩ | ⟨_, rfl⟩ <;>
        cases same

end UniformsReader

/-- Whatever a uniforms section says, the uniforms read of it are proper. -/
theorem Uniforms.proper_ofSection (text : Text) (types : Types) :
    (Uniforms.ofSection text types).value.Proper types :=
  UniformsReader.keeps_proper.ofSection (.empty types) text

end ShaderPipeline.Schema
