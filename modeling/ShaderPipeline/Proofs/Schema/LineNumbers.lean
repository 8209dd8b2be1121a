import ShaderPipeline.Proofs.Schema.TypesReading

/-! The numbers of lines in a types section stand in its warnings only: read under other numbers,
the same lines declare the same structs. -/

namespace ShaderPipeline.Schema

/-- The same struct, under a header of any number. -/
structure OpenStruct.Alike (first second : OpenStruct) : Prop where
  struct : first.struct = second.struct
  valid : first.valid = second.valid

namespace TypesReader

/-- Readers that differ in the numbers of headers at most. -/
structure Alike (first second : TypesReader) : Prop where
  types : first.types = second.types
  current : Option.Rel OpenStruct.Alike first.current? second.current?
  pending : Option.Rel OpenStruct.Alike first.pending? second.pending?
  skipping : first.skipping = second.skipping

theorem alike_refl (reader : TypesReader) : Alike reader reader := by
  have same : ∀ struct? : Option OpenStruct, Option.Rel OpenStruct.Alike struct? struct? := by
    intro struct?
    cases struct? with
    | none => exact .none
    | some struct => exact .some ⟨rfl, rfl⟩
  exact ⟨rfl, same _, same _, rfl⟩

namespace Alike

variable {first second : TypesReader} (alike : Alike first second)
include alike

theorem open_alike {current other : OpenStruct} (same : current.Alike other) :
    Alike { first with current? := some current } { second with current? := some other } :=
  ⟨alike.types, .some same, alike.pending, alike.skipping⟩

theorem statement (number other : Nat) (text : Text) :
    Alike (first.statement number text).value (second.statement other text).value := by
  have opened := alike.current
  rw [TypesReader.statement, TypesReader.statement]
  cases here : first.current? <;> cases there : second.current? <;> rw [here, there] at opened
  case none.none => exact alike
  case some.some =>
    cases opened with
    | some same =>
      dsimp only
      rw [← alike.types, ← same.struct]
      split
      · exact ⟨rfl, .some ⟨rfl, same.valid⟩, alike.pending, alike.skipping⟩
      · exact alike
  all_goals cases opened

theorem statements (number other : Nat) (texts : List Text) :
    Alike (first.statements number texts).value (second.statements other texts).value := by
  induction texts generalizing first second with
  | nil => exact alike
  | cons text rest ih => exact ih (alike.statement number other text)

theorem close (number other : Nat) :
    Alike (first.close number).value (second.close other).value := by
  have opened := alike.current
  rw [TypesReader.close, TypesReader.close]
  cases here : first.current? <;> cases there : second.current? <;> rw [here, there] at opened
  case none.none => exact alike
  case some.some =>
    cases opened with
    | some same =>
      dsimp only
      rw [← alike.types, ← same.valid, ← same.struct]
      split
      · exact ⟨rfl, .none, alike.pending, alike.skipping⟩
      · split <;> exact ⟨rfl, .none, alike.pending, alike.skipping⟩
  all_goals cases opened

theorem body (number other : Nat) (text : Text) :
    Alike (first.body number text).value (second.body other text).value := by
  have read := alike.statements number other
    (Text.statements (Text.BlockLine.ofText text).inner)
  rw [value_body, value_body]
  dsimp only
  split
  · exact read.close number other
  · exact read

theorem header (number other : Nat) (after : Text) :
    Alike (first.header number after).value (second.header other after).value := by
  have same : OpenStruct.Alike
      ⟨.empty (Text.splitHeader after).1.string, number,
        (nameProblem? first.types (Text.splitHeader after).1).isNone⟩
      ⟨.empty (Text.splitHeader after).1.string, other,
        (nameProblem? second.types (Text.splitHeader after).1).isNone⟩ :=
    ⟨rfl, by rw [alike.types]⟩
  rw [value_header, value_header]
  dsimp only
  split
  next text _ => exact (alike.open_alike same).body number other text
  next => exact ⟨alike.types, alike.current, .some same, alike.skipping⟩

theorem declaration (number other : Nat) (text : Text) :
    Alike (first.declaration number text).value (second.declaration other text).value := by
  have opened := alike.current
  rw [TypesReader.declaration, TypesReader.declaration]
  split
  · exact alike
  · split
    · cases here : first.current? <;> cases there : second.current? <;> rw [here, there] at opened
      case none.none => exact alike.header number other _
      case some.some =>
        exact ⟨alike.types, opened, alike.pending, rfl⟩
      all_goals cases opened
    · split
      · exact alike
      · exact alike.body number other text

theorem line (number other : Nat) (text : Text) :
    Alike (first.line number text).value (second.line other text).value := by
  have waiting := alike.pending
  rw [TypesReader.line, TypesReader.line]
  dsimp only
  by_cases skips : first.skipping = true
  · rw [if_pos skips, if_pos (alike.skipping ▸ skips)]
    exact ⟨alike.types, alike.current, alike.pending, rfl⟩
  · rw [if_neg skips, if_neg (alike.skipping ▸ skips)]
    have taken : Alike { first with pending? := none } { second with pending? := none } :=
      ⟨alike.types, alike.current, .none, alike.skipping⟩
    cases here : first.pending? <;> cases there : second.pending? <;> rw [here, there] at waiting
    case none.none => exact alike.declaration number other _
    case some.some =>
      cases waiting with
      | some same =>
        dsimp only
        split
        next rest _ => exact (taken.open_alike same).body number other rest
        next => exact taken.declaration number other _
    all_goals cases waiting

/-- Lines are read alike under any numbers. -/
theorem lines (number other : Nat) (texts : List Text) :
    Alike (first.lines number texts).value (second.lines other texts).value := by
  induction texts generalizing first second number other with
  | nil => exact alike
  | cons text rest ih => exact ih (alike.line number other text) (number + 1) (other + 1)

end Alike

end TypesReader
end ShaderPipeline.Schema
