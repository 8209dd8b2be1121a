import ShaderPipeline.Proofs.Reports
import ShaderPipeline.Schema.TypesSection
import ShaderPipeline.Schema.UniformsSection

/-! The readers of types and of uniforms warn, and do nothing else to the log. -/

namespace ShaderPipeline.Schema

namespace TypesReader

variable (reader : TypesReader) (number : Nat)

@[simp] theorem quiet_warn (problem : Problem) : (warn number problem).Quiet :=
  Logged.quiet_warn _

@[simp] theorem quiet_statement (text : Text) : (reader.statement number text).Quiet := by
  rw [statement]
  split
  · simp
  · split <;> simp

@[simp] theorem quiet_statements (texts : List Text) :
    (reader.statements number texts).Quiet := by
  induction texts generalizing reader with
  | nil => simp [statements]
  | cons text rest ih => simp [statements, ih]

@[simp] theorem quiet_close : (reader.close number).Quiet := by
  rw [close]
  cases reader.current? <;> simp

@[simp] theorem quiet_body (text : Text) : (reader.body number text).Quiet := by
  rw [body]
  cases (Text.BlockLine.ofText text).trailing? <;> simp

@[simp] theorem quiet_header (after : Text) : (reader.header number after).Quiet := by
  rw [header]
  obtain ⟨name, body?⟩ := Text.splitHeader after
  dsimp only
  cases nameProblem? reader.types name <;> cases body? <;> simp

@[simp] theorem quiet_declaration (text : Text) : (reader.declaration number text).Quiet := by
  rw [declaration]
  split
  · simp
  · cases reader.current? <;> simp

@[simp] theorem quiet_line (text : Text) : (reader.line number text).Quiet := by
  rw [line]
  cases reader.pending? with
  | none => simp
  | some pending => cases Text.dropStart? ['\x7b'] (Text.trim text) <;> simp

private theorem quiet_lines (texts : List Text) : (reader.lines number texts).Quiet := by
  induction texts generalizing reader number with
  | nil => simp [lines]
  | cons text rest ih => simp [lines, ih]

private theorem quiet_finish : reader.finish.Quiet := by
  rw [finish]
  cases reader.pending? <;> cases reader.current? <;> simp

end TypesReader

theorem Types.quiet_ofSection (text : Text) : (ofSection text).Quiet :=
  Logged.quiet_bind.mpr ⟨TypesReader.quiet_lines _ _ _, TypesReader.quiet_finish _⟩

namespace UniformsReader

variable (reader : UniformsReader) (types : Types) (number : Nat)

@[simp] theorem quiet_warn (problem : Problem) : (warn number problem).Quiet :=
  Logged.quiet_warn _

@[simp] theorem quiet_property (text : Text) : (reader.property types number text).Quiet := by
  rw [property]
  split
  · simp
  · split <;> simp

@[simp] theorem quiet_properties (texts : List Text) :
    (reader.properties types number texts).Quiet := by
  induction texts generalizing reader with
  | nil => simp [properties]
  | cons text rest ih => simp [properties, ih]

@[simp] theorem quiet_close : (reader.close number).Quiet := by
  rw [close]
  cases reader.current? with
  | none => simp
  | some current =>
    simp only [Logged.quiet_ite, Logged.quiet_pure, Logged.quiet_bind, quiet_warn, and_self,
      implies_true, true_and]
    intro _ _
    split <;> simp

@[simp] theorem quiet_body (text : Text) : (reader.body types number text).Quiet := by
  rw [body]
  cases (Text.BlockLine.ofText text).trailing? <;> simp

@[simp] theorem quiet_header (after : Text) : (reader.header types number after).Quiet := by
  rw [header]
  obtain ⟨name, body?⟩ := Text.splitHeader after
  dsimp only
  cases nameProblem? reader.uniforms name <;> cases body? <;> simp

@[simp] theorem quiet_imageFormat (name : Text) (words : List Text) :
    (imageFormat number name words).Quiet := by
  cases words <;> simp [imageFormat]

@[simp] theorem quiet_kind? (type name : Text) (extra : List Text) :
    (kind? types number type name extra).Quiet := by
  rw [kind?]
  cases TextureShape.ofImageName? type.string with
  | some shape => simp
  | none =>
    cases TextureShape.ofSamplerName? type.string <;> cases ValueType.ofName? type.string <;> simp

@[simp] theorem quiet_uniform (text : Text) : (reader.uniform types number text).Quiet := by
  rw [uniform]
  simp only [Logged.quiet_ite, Logged.quiet_pure, Logged.quiet_bind, quiet_warn, and_self,
    implies_true, true_and]
  intro _
  split
  · simp
  split
  · simp
  split
  · simp
  simp only [Logged.quiet_ite, Logged.quiet_pure, Logged.quiet_bind, quiet_warn, and_self,
    quiet_kind?, implies_true, true_and]
  intro _
  split
  · simp
  split <;> simp

@[simp] theorem quiet_statements (texts : List Text) :
    (reader.statements types number texts).Quiet := by
  induction texts generalizing reader with
  | nil => simp [statements]
  | cons text rest ih => simp [statements, ih]

@[simp] theorem quiet_declaration (text : Text) :
    (reader.declaration types number text).Quiet := by
  rw [declaration]
  split
  · simp
  · cases reader.current? <;> simp

@[simp] theorem quiet_line (text : Text) : (reader.line types number text).Quiet := by
  rw [line]
  cases reader.pending? with
  | none => simp
  | some pending => cases Text.dropStart? ['\x7b'] (Text.trim text) <;> simp

private theorem quiet_lines (texts : List Text) : (reader.lines types number texts).Quiet := by
  induction texts generalizing reader number with
  | nil => simp [lines]
  | cons text rest ih => simp [lines, ih]

private theorem quiet_finish : reader.finish.Quiet := by
  rw [finish]
  cases reader.pending? <;> cases reader.current? <;> simp

end UniformsReader

theorem Uniforms.quiet_ofSection (text : Text) (types : Types) : (ofSection text types).Quiet :=
  Logged.quiet_bind.mpr ⟨UniformsReader.quiet_lines _ _ _ _, UniformsReader.quiet_finish _⟩

end ShaderPipeline.Schema
