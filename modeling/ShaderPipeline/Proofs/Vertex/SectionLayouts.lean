import ShaderPipeline.Proofs.Vertex.SectionOverflow
import ShaderPipeline.Proofs.Vertex.Steps

/-! What a layout section comes to, whatever its text is: a fault at a field that its group has no
room for, no layout where no attribute was accepted, or a well-formed layout whose names, counts
and widths have been checked. -/

namespace ShaderPipeline.Vertex

/-- What a section checks of each attribute and each field. -/
structure Layout.Proper (layout : Layout) : Prop where
  identifiers : ∀ component ∈ layout.components, Text.isIdentifier component.name.toList = true
  formats : ∀ input ∈ layout.attributes, input.format.Proper
  fields : ∀ input ∈ layout.attributes, ∀ group, input.packed = some group →
    ∀ field ∈ group.fields, field.Proper

namespace Builder

/-- The layout declared so far and the open group have been checked. -/
structure Proper (builder : Builder) : Prop where
  layout : builder.layout.Proper
  fields : ∀ group, builder.group? = some group → ∀ field ∈ group.fields, field.Proper

private theorem proper_empty : empty.Proper := by
  constructor
  · constructor <;> simp [empty, Builder.layout]
  · simp [empty]

private theorem proper_place {builder : Builder} (proper : builder.layout.Proper) {name : String}
    {format : Format} {packed : Option PackedGroup} {parts : List (String × Storage)}
    (counted : format.Proper)
    (named : ∀ part ∈ parts, Text.isIdentifier part.1.toList = true)
    (checked : ∀ group, packed = some group → ∀ field ∈ group.fields, field.Proper) :
    (builder.place name format packed parts).layout.Proper := by
  rw [layout_place]
  constructor
  · intro component member
    rcases List.mem_append.mp member with old | new
    · exact proper.identifiers component old
    · have name : component.name ∈ (builder.placed parts).map Component.name :=
        List.mem_map_of_mem new
      rw [map_name_placed] at name
      obtain ⟨part, present, same⟩ := List.mem_map.mp name
      rw [← same]
      exact named part present
  · intro input member
    rcases List.mem_append.mp member with old | last
    · exact proper.formats input old
    · obtain rfl := List.mem_singleton.mp last
      exact counted
  · intro input member
    rcases List.mem_append.mp member with old | last
    · exact proper.fields input old
    · obtain rfl := List.mem_singleton.mp last
      exact checked

namespace Proper

variable {builder : Builder} (proper : builder.Proper)
include proper

theorem shut : { builder with group? := none }.Proper := ⟨proper.layout, by simp⟩

theorem add {name : String} {format : Format} (named : Text.isIdentifier name.toList = true)
    (counted : format.Proper) : (builder.add name format).value.Proper := by
  rw [Builder.add]
  split
  · exact proper
  next outside =>
    split
    · exact proper
    · refine ⟨proper_place proper.layout counted (by simpa using named) (by simp), ?_⟩
      intro group opened
      exact absurd (Option.isSome_of_eq_some opened) outside

theorem endPacked : builder.endPacked.value.2.Proper := by
  cases opened : builder.group? with
  | none => simpa [Builder.endPacked, opened] using proper
  | some group =>
    by_cases filled : group.fields = []
    · simpa [Builder.endPacked, opened, filled] using proper.shut
    · have checked := proper.fields group opened
      rw [value_endPacked opened filled]
      refine ⟨proper_place proper.shut.layout ?_ ?_ ?_, by simp [place]⟩
      · exact ⟨by decide, by simp [Format.word]⟩
      · intro part member
        obtain ⟨field, present, rfl⟩ := List.mem_map.mp member
        exact (checked field present).identifier
      · rintro _ ⟨⟩
        exact checked

theorem addPackedField {name : String} {scalar : Scalar} {count bits : Nat}
    (checked : Operation.Proper builder (.addPackedField name scalar count bits)) :
    (builder.step (.addPackedField name scalar count bits)).Proper := by
  rcases step_addPackedField builder name scalar count bits with
    same | ⟨group, opened, -, -, fits, same⟩
  · rw [same]
    exact proper
  · rw [same]
    refine ⟨proper.layout, ?_⟩
    rintro _ ⟨⟩ field member
    rw [PackedGroup.fields_append, List.mem_append, List.mem_singleton] at member
    rcases member with old | rfl
    · exact proper.fields group opened field old
    · exact checked group opened fits

end Proper

private theorem keeps_proper : Keeps Proper where
  step builder operation proper checked := by
    cases operation with
    | add name format => exact proper.add checked.1 checked.2
    | beginPacked name? =>
      rw [step, value_beginPacked]
      refine ⟨proper.layout, fun group opened => ?_⟩
      obtain rfl := Option.some.inj opened
      simp [PackedGroup.empty]
    | addPackedField name scalar count bits => exact proper.addPackedField checked
    | endPacked => exact proper.endPacked
    | discardPacked => exact proper.shut

/-- No call takes an attribute away. -/
theorem attributes_step (builder : Builder) (operation : Operation) :
    builder.attributes <+: (builder.step operation).attributes := by
  have does := builder.does_step operation
  generalize builder.step operation = next at does
  cases does with
  | rejected | opened | extended | dropped => exact List.prefix_refl _
  | added | closed => exact List.prefix_append _ _

private theorem keeps_attributes (attributes : List Attribute) :
    Keeps fun builder => attributes <+: builder.attributes :=
  ⟨fun builder operation grown _ => grown.trans (attributes_step builder operation)⟩

end Builder

namespace Reader

/-- What has been declared is the answer. A group that is still open does not count. -/
theorem value_finish (reader : Reader) :
    reader.finish.value =
      if reader.builder.layout.isEmpty then none else some reader.builder.layout := by
  have answer (builder : Builder) (same : builder.layout = reader.builder.layout) :
      (if reader.skipping then
        Logged.warn "layout: reached the end of the section while looking for '\x7d'" >>= fun _ =>
          builder.build >>= fun layout => pure (if layout.isEmpty then none else some layout)
      else builder.build >>= fun layout =>
        pure (if layout.isEmpty then none else some layout) : Logged (Option Layout)).value =
        if reader.builder.layout.isEmpty then none else some reader.builder.layout := by
    split
    · rw [Logged.value_bind, Logged.value_bind, Builder.value_build, same]
      rfl
    · rw [Logged.value_bind, Builder.value_build, same]
      rfl
  rw [finish]
  cases reader.pending? with
  | none =>
    dsimp only
    split
    · exact answer reader.builder.discardPacked rfl
    · exact answer reader.builder rfl
  | some pending =>
    dsimp only
    rw [Logged.value_bind]
    split
    · exact answer reader.builder.discardPacked rfl
    · exact answer reader.builder rfl

theorem value_lines_append (reader : Reader) (number : Nat) (first second : List Text) :
    (reader.lines number (first ++ second)).run.value =
      match (reader.lines number first).run.value with
      | .ok next => (next.lines (number + first.length) second).run.value
      | .error fault => .error fault := by
  induction first generalizing reader number with
  | nil => rfl
  | cons line rest ih =>
    rw [List.cons_append, lines, lines, Logged.value_run_bind, Logged.value_run_bind]
    cases (reader.line number line).run.value with
    | error fault => rfl
    | ok next =>
      dsimp only
      rw [ih, List.length_cons, Nat.add_assoc, Nat.add_comm 1]

end Reader

namespace Layout

/-- The first field that its group has no room for stands in some line of the text, and the fault
says what is left in the group when all before the field has been read. -/
def OverflowsAt (text : Text) (fault : Fault) : Prop :=
  ∃ earlier line later, Text.lines text = earlier ++ line :: later ∧
    Reader.OverflowsIn (fun start => Reader.start.lines 1 (earlier ++ [start])) line fault

/-- After no line of the text is there an attribute. -/
def AcceptsNone (text : Text) : Prop :=
  ∀ earlier later, Text.lines text = earlier ++ later →
    ∃ reader, (Reader.start.lines 1 earlier).run.value = .ok reader ∧
      reader.builder.attributes = []

theorem value_ofSection (text : Text) :
    (ofSection text).run.value =
      (Reader.start.lines 1 (Text.lines text)).run.value.map fun reader => reader.finish.value := by
  rw [ofSection, Logged.value_run_bind]
  cases (Reader.start.lines 1 (Text.lines text)).run.value <;> rfl

/-- Reading a section fails at a field that its group has no room for, gives no layout where no
attribute was accepted, and gives a well-formed and checked layout everywhere else. -/
theorem ofSection_outcomes (text : Text) :
    (∀ fault, (ofSection text).run.value = .error fault → OverflowsAt text fault) ∧
    ((ofSection text).run.value = .ok none → AcceptsNone text) ∧
    ∀ layout, (ofSection text).run.value = .ok (some layout) →
      layout.attributes ≠ [] ∧ layout.WellFormed ∧ layout.Proper := by
  rw [value_ofSection]
  cases read : (Reader.start.lines 1 (Text.lines text)).run.value with
  | error fault =>
    refine ⟨?_, nofun, nofun⟩
    intro other failed
    cases failed
    exact Reader.lines_overflows Builder.wellFormed_empty read
  | ok reader =>
    refine ⟨nofun, ?_, ?_⟩
    · intro answered earlier later split
      have last : reader.builder.attributes = [] := by
        rw [Except.map, Reader.value_finish] at answered
        split at answered
        next none => exact List.isEmpty_iff.mp none
        next => cases answered
      rw [split, Reader.value_lines_append] at read
      cases before : (Reader.start.lines 1 earlier).run.value with
      | error fault => rw [before] at read; cases read
      | ok middle =>
        rw [before] at read
        have grown := (Builder.keeps_attributes middle.builder.attributes).lines
          (List.prefix_refl _) read
        rw [last] at grown
        exact ⟨middle, rfl, List.prefix_nil.mp grown⟩
    · intro layout answered
      rw [Except.map, Reader.value_finish] at answered
      split at answered
      next => cases answered
      next some =>
        cases answered
        have valid := Builder.keeps_wellFormed.lines Builder.wellFormed_empty read
        have proper := Builder.keeps_proper.lines Builder.proper_empty read
        refine ⟨?_, valid.layout.wellFormed, proper.layout⟩
        intro none
        exact some (List.isEmpty_iff.mpr none)

/-- A group of 32 bits with a field of 30 bits behind two of 4 bits. -/
def crowdedText : Text := "vec3 at\npacked g \x7b byte a 4 byte b 4\nint c 30 \x7d".toList

/-- A group whose only field is wider than its type. -/
def wideText : Text := "packed g \x7b\nbyte a 9\n\x7d".toList

/-- A plain, a normalized and a packed attribute. -/
def mixedText : Text :=
  "vec3 at\nnormalized vec4 tint byte\npacked \x7b ivec2 cell 10 byte kind 4 \x7d".toList

def mixedGroup : PackedGroup :=
  ⟨"packed0", [⟨"cell", .int, 2, 10, 0⟩, ⟨"kind", .byte, 1, 4, 20⟩]⟩

def mixedLayout : Layout where
  components := [⟨"at", 0, 0, .plain⟩, ⟨"tint", 1, 1, .plain⟩,
    ⟨"cell", 2, 2, .packed ⟨"cell", .int, 2, 10, 0⟩⟩, ⟨"kind", 3, 2, .packed ⟨"kind", .byte, 1, 4, 20⟩⟩]
  attributes := [⟨"at", ⟨.float, 3, false⟩, 0, none⟩, ⟨"tint", ⟨.byte, 4, true⟩, 12, none⟩,
    ⟨"packed0", .word, 16, some mixedGroup⟩]
  stride := 20

theorem ofSection_outcomes_reached :
    ((ofSection crowdedText).run.value = .error (.packedOverflow "g" "c" 30 24) ∧
      OverflowsAt crowdedText (.packedOverflow "g" "c" 30 24)) ∧
    ((ofSection wideText).run.value = .ok none ∧ AcceptsNone wideText) ∧
    (ofSection mixedText).run.value = .ok (some mixedLayout) ∧
      mixedLayout.attributes ≠ [] ∧ mixedLayout.WellFormed ∧ mixedLayout.Proper := by
  have crowded : (ofSection crowdedText).run.value = .error (.packedOverflow "g" "c" 30 24) := by
    rfl
  have wide : (ofSection wideText).run.value = .ok none := by rfl
  have mixed : (ofSection mixedText).run.value = .ok (some mixedLayout) := by rfl
  exact ⟨⟨crowded, (ofSection_outcomes crowdedText).1 _ crowded⟩,
    ⟨wide, (ofSection_outcomes wideText).2.1 wide⟩,
    mixed, (ofSection_outcomes mixedText).2.2 _ mixed⟩

end Layout

end ShaderPipeline.Vertex
