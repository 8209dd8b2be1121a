import ShaderPipeline.Proofs.Logged
import ShaderPipeline.Schema.TypesSection

/-! What holds of the structs of a types section. A property that is kept while a struct is opened,
given a member and closed holds of whatever a section says; the lines and braces between these steps
do not matter. -/

namespace ShaderPipeline.Schema.TypesReader

/-- What a statement that adds a member has to say. -/
theorem of_addProperty_ok {types : Types} {struct more : Struct} {statement : Text}
    (added : addProperty types struct statement = .ok more) :
    ∃ type declarator name length propertyType size,
      Text.splitBlank? statement = some (type, declarator) ∧
      Text.splitArraySuffix? declarator = some (name, length) ∧
      Text.isIdentifier name = true ∧
      types.resolve? type.string = some (propertyType, size) ∧
      (struct.property? name.string).isSome = false ∧
      struct.push? ⟨name.string, propertyType, length⟩ size = some more := by
  rw [addProperty] at added
  split at added
  next type declarator split =>
    split at added
    next name length suffix =>
      by_cases proper : Text.isIdentifier name = true
      · simp only [proper, Bool.not_true, Bool.false_eq_true, ↓reduceIte] at added
        split at added
        next propertyType size resolved =>
          cases taken : (struct.property? name.string).isSome with
          | true => simp [taken] at added; cases added
          | false =>
            simp only [taken, Bool.false_eq_true, ↓reduceIte] at added
            split at added
            next pushed fits =>
              cases added
              exact ⟨type, declarator, name, length, propertyType, size, split, suffix, proper,
                resolved, taken, fits⟩
            next => cases added
        next => cases added
      · simp only [proper, Bool.not_false, ↓reduceIte] at added
        cases added
    next => cases added
  next => cases added

/-- What a line of a body comes to, apart from its warnings. -/
theorem value_body (reader : TypesReader) (line : Nat) (text : Text) :
    (reader.body line text).value =
      let read :=
        (reader.statements line (Text.statements (Text.BlockLine.ofText text).inner)).value
      if (Text.BlockLine.ofText text).closes then (read.close line).value else read := by
  rw [TypesReader.body]
  cases (Text.BlockLine.ofText text).trailing? <;> cases (Text.BlockLine.ofText text).closes <;> rfl

theorem value_header (reader : TypesReader) (line : Nat) (after : Text) :
    (reader.header line after).value =
      let (name, body?) := Text.splitHeader after
      let struct : OpenStruct :=
        ⟨.empty name.string, line, (nameProblem? reader.types name).isNone⟩
      match body? with
      | some text => (body { reader with current? := some struct } line text).value
      | none => { reader with pending? := some struct } := by
  rw [TypesReader.header]
  dsimp only
  cases nameProblem? reader.types (Text.splitHeader after).1 <;>
    cases (Text.splitHeader after).2 <;> rfl

theorem value_finish (reader : TypesReader) : reader.finish.value = reader.types := by
  rw [finish]
  cases reader.pending? <;> cases reader.current? <;> rfl

/-! ### Kept properties -/

/-- A property of the structs read and one of the struct that is open, which the three steps of a
reader keep. -/
structure Keeps (Kept : Types → Prop) (Held : Types → OpenStruct → Prop) : Prop where
  opened : ∀ (types : Types) (name : Text) (line : Nat),
    Held types ⟨.empty name.string, line, (nameProblem? types name).isNone⟩
  added : ∀ {types : Types} {current : OpenStruct} {statement : Text} {struct : Struct},
    Held types current → addProperty types current.struct statement = .ok struct →
      Held types { current with struct }
  closed : ∀ {types more : Types} {current : OpenStruct}, Kept types → Held types current →
    current.valid = true → current.struct.properties ≠ [] →
      types.add? current.struct = some more → Kept more

/-- What holds of a reader at every line. -/
structure Holds (Kept : Types → Prop) (Held : Types → OpenStruct → Prop) (reader : TypesReader) :
    Prop where
  types : Kept reader.types
  current : ∀ current, reader.current? = some current → Held reader.types current
  pending : ∀ pending, reader.pending? = some pending → Held reader.types pending

/-- What holds of a reader in the middle of a line, where no header waits for its brace. -/
structure HoldsInside (Kept : Types → Prop) (Held : Types → OpenStruct → Prop)
    (reader : TypesReader) : Prop where
  types : Kept reader.types
  current : ∀ current, reader.current? = some current → Held reader.types current
  none : reader.pending? = none

variable {Kept : Types → Prop} {Held : Types → OpenStruct → Prop} {reader : TypesReader}

theorem Holds.start (empty : Kept .empty) : Holds Kept Held TypesReader.start :=
  ⟨empty, fun _ absent => (nomatch absent), fun _ absent => (nomatch absent)⟩

theorem HoldsInside.holds (inside : HoldsInside Kept Held reader) : Holds Kept Held reader where
  types := inside.types
  current := inside.current
  pending pending waiting := by
    rw [inside.none] at waiting
    cases waiting

/-- A struct of which the property holds can be the open one. -/
theorem HoldsInside.open (inside : HoldsInside Kept Held reader) {current : OpenStruct}
    (held : Held reader.types current) :
    HoldsInside Kept Held { reader with current? := some current } where
  types := inside.types
  current other same := by
    cases same
    exact held
  none := inside.none

namespace Keeps

variable (keeps : Keeps Kept Held)
include keeps

theorem statement (inside : HoldsInside Kept Held reader) (line : Nat) (text : Text) :
    HoldsInside Kept Held (reader.statement line text).value := by
  rw [TypesReader.statement]
  cases opened : reader.current? with
  | none => exact inside
  | some current =>
    dsimp only
    cases added : addProperty reader.types current.struct text with
    | error problem => exact inside
    | ok struct => exact inside.open (keeps.added (inside.current current opened) added)

theorem statements (inside : HoldsInside Kept Held reader) (line : Nat)
    (texts : List Text) :
    HoldsInside Kept Held (reader.statements line texts).value := by
  induction texts generalizing reader with
  | nil => exact inside
  | cons first rest ih => exact ih (keeps.statement inside line first)

theorem close (inside : HoldsInside Kept Held reader) (line : Nat) :
    HoldsInside Kept Held (reader.close line).value := by
  have closed : HoldsInside Kept Held { reader with current? := none } :=
    ⟨inside.types, fun _ absent => (nomatch absent), inside.none⟩
  rw [TypesReader.close]
  cases opened : reader.current? with
  | none => exact inside
  | some current =>
    dsimp only
    split
    · exact closed
    next valid =>
      split
      · exact closed
      next filled =>
        cases added : reader.types.add? current.struct with
        | none => exact closed
        | some more =>
          have kept := keeps.closed inside.types (inside.current current opened)
            (by simpa using valid) (by simpa using filled) added
          exact ⟨kept, fun _ absent => (nomatch absent), inside.none⟩

theorem body (inside : HoldsInside Kept Held reader) (line : Nat) (text : Text) :
    HoldsInside Kept Held (reader.body line text).value := by
  have read := keeps.statements inside line (Text.statements (Text.BlockLine.ofText text).inner)
  rw [value_body]
  dsimp only
  split
  · exact keeps.close read line
  · exact read

theorem header (inside : HoldsInside Kept Held reader) (line : Nat) (after : Text) :
    Holds Kept Held (reader.header line after).value := by
  have held := keeps.opened reader.types (Text.splitHeader after).1 line
  rw [value_header]
  dsimp only
  split
  next text _ => exact (keeps.body (inside.open held) line text).holds
  next =>
    refine ⟨inside.types, inside.current, fun _ same => ?_⟩
    cases same
    exact held

theorem declaration (inside : HoldsInside Kept Held reader) (line : Nat) (text : Text) :
    Holds Kept Held (reader.declaration line text).value := by
  rw [TypesReader.declaration]
  split
  · exact inside.holds
  · split
    · split
      · exact ⟨inside.types, inside.current, inside.holds.pending⟩
      · exact keeps.header inside line _
    · split
      · exact inside.holds
      · exact (keeps.body inside line text).holds

theorem line (holds : Holds Kept Held reader) (number : Nat) (text : Text) :
    Holds Kept Held (reader.line number text).value := by
  rw [TypesReader.line]
  dsimp only
  split
  · exact ⟨holds.types, holds.current, holds.pending⟩
  · cases waiting : reader.pending? with
    | none => exact keeps.declaration ⟨holds.types, holds.current, waiting⟩ number _
    | some pending =>
      have taken : HoldsInside Kept Held { reader with pending? := none } :=
        ⟨holds.types, holds.current, rfl⟩
      dsimp only
      cases Text.dropStart? ['\x7b'] (Text.trim text) with
      | none => exact keeps.declaration taken number _
      | some rest =>
        have held := holds.pending pending waiting
        exact (keeps.body (taken.open held) number rest).holds

theorem lines (holds : Holds Kept Held reader) (number : Nat) (texts : List Text) :
    Holds Kept Held (reader.lines number texts).value := by
  induction texts generalizing reader number with
  | nil => exact holds
  | cons first rest ih => exact ih (keeps.line holds number first) (number + 1)

/-- What is kept from no structs on holds of the structs of every section. -/
theorem ofSection (empty : Kept .empty) (text : Text) : Kept (Types.ofSection text).value := by
  rw [Types.ofSection, Logged.value_bind, value_finish]
  exact (keeps.lines (.start empty) 1 (Text.lines text)).types

end Keeps

end ShaderPipeline.Schema.TypesReader
