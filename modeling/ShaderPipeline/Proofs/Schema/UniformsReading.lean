import ShaderPipeline.Proofs.Logged
import ShaderPipeline.Schema.UniformsSection

/-! What holds of the uniforms of a section. A property that is kept while a block is opened, given
a member and closed, and while a uniform is declared outside blocks, holds of whatever a section
says. -/

namespace ShaderPipeline.Schema.UniformsReader

variable {types : Types}

/-- What a statement that adds a member has to say. -/
theorem of_addProperty_ok {block more : BufferBlock} {statement : Text}
    (added : addProperty types block statement = .ok more) :
    ∃ type declarator name length propertyType size,
      statement.contains '=' = false ∧
      Text.splitBlank? statement = some (type, declarator) ∧
      Text.splitArraySuffix? declarator = some (name, length) ∧
      Text.isIdentifier name = true ∧
      types.resolve? type.string = some (propertyType, size) ∧
      (block.property? name.string).isSome = false ∧
      more = { block with
        properties := block.properties ++ [⟨name.string, propertyType, length⟩] } := by
  rw [addProperty] at added
  cases assigns : statement.contains '=' with
  | true => simp only [assigns, ↓reduceIte] at added; cases added
  | false =>
    simp only [assigns, Bool.false_eq_true, ↓reduceIte] at added
    split at added
    next type declarator split =>
      split at added
      next name length suffix =>
        by_cases proper : Text.isIdentifier name = true
        · simp only [proper, Bool.not_true, Bool.false_eq_true, ↓reduceIte] at added
          split at added
          next propertyType size resolved =>
            cases taken : (block.property? name.string).isSome with
            | true => simp only [taken, ↓reduceIte] at added; cases added
            | false =>
              simp only [taken, Bool.false_eq_true, ↓reduceIte] at added
              cases added
              exact ⟨type, declarator, name, length, propertyType, size, rfl, split, suffix,
                proper, resolved, taken, rfl⟩
          next => cases added
        · simp only [proper, Bool.not_false, ↓reduceIte] at added
          cases added
      next => cases added
    next => cases added

/-- What a uniform outside blocks can bind. -/
theorem kind?_cases {line : Nat} {type name : Text} {extra : List Text} {kind : UniformKind}
    (read : (kind? types line type name extra).value = some kind) :
    (∃ shape format, TextureShape.ofImageName? type.string = some shape ∧
      kind = .image shape format) ∨
    (∃ shape, TextureShape.ofSamplerName? type.string = some shape ∧ kind = .sampler shape) ∨
    (∃ value, ValueType.ofName? type.string = some value ∧ kind = .value value) ∨
    (types.contains type.string = true ∧ kind = .struct type.string) := by
  rw [kind?] at read
  split at read
  next shape image =>
    cases read
    exact .inl ⟨shape, _, image, rfl⟩
  next =>
    refine .inr ?_
    by_cases plain : extra.isEmpty = true <;>
      simp only [plain, Bool.not_true, Bool.not_false, Bool.false_eq_true, ↓reduceIte,
        Logged.value_bind] at read
    all_goals
      split at read
      next shape sampler =>
        cases read
        exact .inl ⟨shape, sampler, rfl⟩
      next =>
        refine .inr ?_
        split at read
        next value builtIn =>
          cases read
          exact .inl ⟨value, builtIn, rfl⟩
        next =>
          split at read
          next declared =>
            cases read
            exact .inr ⟨declared, rfl⟩
          next => cases read

/-- What a line of a body comes to, apart from its warnings. -/
theorem value_body (reader : UniformsReader) (line : Nat) (text : Text) :
    (reader.body types line text).value =
      let read := (reader.properties types line
        (Text.statements (Text.BlockLine.ofText text).inner)).value
      if (Text.BlockLine.ofText text).closes then (read.close line).value else read := by
  rw [UniformsReader.body]
  cases (Text.BlockLine.ofText text).trailing? <;> cases (Text.BlockLine.ofText text).closes <;> rfl

private theorem value_header (reader : UniformsReader) (line : Nat) (after : Text) :
    (reader.header types line after).value =
      let (name, body?) := Text.splitHeader after
      let block : OpenBlock :=
        ⟨⟨name.string, []⟩, line, (nameProblem? reader.uniforms name).isNone⟩
      match body? with
      | some text => (body { reader with current? := some block } types line text).value
      | none => { reader with pending? := some block } := by
  rw [UniformsReader.header]
  dsimp only
  cases nameProblem? reader.uniforms (Text.splitHeader after).1 <;>
    cases (Text.splitHeader after).2 <;> rfl

private theorem value_finish (reader : UniformsReader) : reader.finish.value = reader.uniforms := by
  rw [finish]
  cases reader.pending? <;> cases reader.current? <;> rfl

/-! ### Kept properties -/

/-- A property of the uniforms read and one of the block that is open, which the four steps of a
reader keep. -/
structure Keeps (types : Types) (Kept : Uniforms → Prop) (Held : OpenBlock → Prop) : Prop where
  opened : ∀ (uniforms : Uniforms) (name : Text) (line : Nat),
    Held ⟨⟨name.string, []⟩, line, (nameProblem? uniforms name).isNone⟩
  added : ∀ {current : OpenBlock} {statement : Text} {block : BufferBlock},
    Held current → addProperty types current.block statement = .ok block →
      Held { current with block }
  closed : ∀ {uniforms more : Uniforms} {current : OpenBlock}, Kept uniforms → Held current →
    current.valid = true → current.block.properties ≠ [] →
      uniforms.add? (.ofBuffer current.block) = some more → Kept more
  declared : ∀ {uniforms more : Uniforms} {declarator name type : Text} {extra : List Text}
    {kind : UniformKind} {length line : Nat}, Kept uniforms →
      Text.splitArraySuffix? declarator = some (name, length) → Text.isIdentifier name = true →
      (kind? types line type name extra).value = some kind →
        uniforms.add? ⟨name.string, kind, length⟩ = some more → Kept more

/-- What holds of a reader at every line. -/
structure Holds (Kept : Uniforms → Prop) (Held : OpenBlock → Prop) (reader : UniformsReader) :
    Prop where
  uniforms : Kept reader.uniforms
  current : ∀ current, reader.current? = some current → Held current
  pending : ∀ pending, reader.pending? = some pending → Held pending

variable {Kept : Uniforms → Prop} {Held : OpenBlock → Prop} {reader : UniformsReader}

/-- A block of which the property holds can be the open one. -/
theorem Holds.open (holds : Holds Kept Held reader) {current : OpenBlock} (held : Held current) :
    Holds Kept Held { reader with current? := some current } where
  uniforms := holds.uniforms
  current other same := by
    cases same
    exact held
  pending := holds.pending

namespace Keeps

variable (keeps : Keeps types Kept Held)
include keeps

theorem property (holds : Holds Kept Held reader) (line : Nat) (statement : Text) :
    Holds Kept Held (reader.property types line statement).value := by
  rw [UniformsReader.property]
  cases opened : reader.current? with
  | none => exact holds
  | some current =>
    dsimp only
    cases added : addProperty types current.block statement with
    | error problem => exact holds
    | ok block => exact holds.open (keeps.added (holds.current current opened) added)

theorem properties (holds : Holds Kept Held reader) (line : Nat) (texts : List Text) :
    Holds Kept Held (reader.properties types line texts).value := by
  induction texts generalizing reader with
  | nil => exact holds
  | cons first rest ih => exact ih (keeps.property holds line first)

theorem close (holds : Holds Kept Held reader) (line : Nat) :
    Holds Kept Held (reader.close line).value := by
  have closed : Holds Kept Held { reader with current? := none } :=
    ⟨holds.uniforms, fun _ absent => (nomatch absent), holds.pending⟩
  rw [UniformsReader.close]
  cases opened : reader.current? with
  | none => exact holds
  | some current =>
    dsimp only
    split
    · exact closed
    next valid =>
      split
      · exact closed
      next filled =>
        cases added : reader.uniforms.add? (.ofBuffer current.block) with
        | none => exact closed
        | some more =>
          have kept := keeps.closed holds.uniforms (holds.current current opened)
            (by simpa using valid) (by simpa using filled) added
          exact ⟨kept, fun _ absent => (nomatch absent), holds.pending⟩

theorem body (holds : Holds Kept Held reader) (line : Nat) (text : Text) :
    Holds Kept Held (reader.body types line text).value := by
  have read := keeps.properties holds line (Text.statements (Text.BlockLine.ofText text).inner)
  rw [value_body]
  dsimp only
  split
  · exact keeps.close read line
  · exact read

theorem header (holds : Holds Kept Held reader) (line : Nat) (after : Text) :
    Holds Kept Held (reader.header types line after).value := by
  have held := keeps.opened reader.uniforms (Text.splitHeader after).1 line
  rw [value_header]
  dsimp only
  split
  next text _ => exact keeps.body (holds.open held) line text
  next =>
    refine ⟨holds.uniforms, holds.current, fun _ same => ?_⟩
    cases same
    exact held

theorem uniform (holds : Holds Kept Held reader) (line : Nat) (statement : Text) :
    Holds Kept Held (reader.uniform types line statement).value := by
  rw [UniformsReader.uniform]
  split
  · exact holds
  · split
    · exact holds
    · split
      · exact holds
      · split
        · exact holds
        next suffix =>
          split
          · exact holds
          next identifier =>
            rw [Logged.value_bind]
            split
            next => exact holds
            next kind read =>
              split
              next more added =>
                have kept := keeps.declared holds.uniforms suffix (by simpa using identifier)
                  read added
                exact ⟨kept, holds.current, holds.pending⟩
              next => exact holds

theorem statements (holds : Holds Kept Held reader) (line : Nat) (texts : List Text) :
    Holds Kept Held (reader.statements types line texts).value := by
  induction texts generalizing reader with
  | nil => exact holds
  | cons first rest ih => exact ih (keeps.uniform holds line first)

theorem declaration (holds : Holds Kept Held reader) (line : Nat) (text : Text) :
    Holds Kept Held (reader.declaration types line text).value := by
  rw [UniformsReader.declaration]
  split
  · exact holds
  · split
    · split
      · exact ⟨holds.uniforms, holds.current, holds.pending⟩
      · exact keeps.header holds line _
    · split
      · exact holds
      · split
        · exact keeps.body holds line text
        · split
          · exact holds
          · exact keeps.statements holds line _

theorem line (holds : Holds Kept Held reader) (number : Nat) (text : Text) :
    Holds Kept Held (reader.line types number text).value := by
  rw [UniformsReader.line]
  dsimp only
  split
  · exact ⟨holds.uniforms, holds.current, holds.pending⟩
  · cases waiting : reader.pending? with
    | none => exact keeps.declaration holds number _
    | some pending =>
      have taken : Holds Kept Held { reader with pending? := none } :=
        ⟨holds.uniforms, holds.current, fun _ absent => (nomatch absent)⟩
      dsimp only
      cases Text.dropStart? ['\x7b'] (Text.trim text) with
      | none => exact keeps.declaration taken number _
      | some rest => exact keeps.body (taken.open (holds.pending pending waiting)) number rest

theorem lines (holds : Holds Kept Held reader) (number : Nat) (texts : List Text) :
    Holds Kept Held (reader.lines types number texts).value := by
  induction texts generalizing reader number with
  | nil => exact holds
  | cons first rest ih => exact ih (keeps.line holds number first) (number + 1)

/-- What is kept from no uniforms on holds of the uniforms of every section. -/
theorem ofSection (empty : Kept .empty) (text : Text) :
    Kept (Uniforms.ofSection text types).value := by
  have start : Holds Kept Held start :=
    ⟨empty, fun _ absent => (nomatch absent), fun _ absent => (nomatch absent)⟩
  rw [Uniforms.ofSection, Logged.value_bind, value_finish]
  exact (keeps.lines start 1 (Text.lines text)).uniforms

end Keeps

end ShaderPipeline.Schema.UniformsReader
