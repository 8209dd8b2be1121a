import ShaderPipeline.Proofs.Vertex.PackedWords
import ShaderPipeline.Proofs.Vertex.SectionLayouts

/-! Packed groups of finished layouts. Whether a layout is declared by calls on a builder or by a
section, values come back from the words of its groups, up to the bits that a field has no room
for, and words come back from the values. -/

namespace ShaderPipeline.Vertex

/-- Packing and unpacking undo each other, and neither shifts past the word. -/
structure PackedGroup.Lossless (group : PackedGroup) : Prop where
  shifts : ∀ slot ∈ group.slots, slot.offset < 32
  /-- A value comes back cut to the bits of its field, and a missing one as zero. -/
  values : ∀ values : List Word, ∃ word read,
    (group.pack values).run.value = .ok word ∧ word.toNat < 2 ^ group.usedBits ∧
      group.unpack word = .ok read ∧ read.length = group.componentCount ∧
      ∀ (index : Nat) (slot : Slot), group.slots[index]? = some slot →
        read[index]? = some (BitVec.ofNat 32
          (((values[index]?).getD 0).toNat % 2 ^ slot.field.bits))
  /-- A word comes back up to the bits that the group does not use. -/
  words : ∀ word : Word, ∃ values, group.unpack word = .ok values ∧
    (group.pack values).run.value = .ok (BitVec.ofNat 32 (word.toNat % 2 ^ group.usedBits))

/-- Fields side by side with a bit for each component lose nothing. -/
theorem PackedGroup.WellFormed.lossless {group : PackedGroup} (valid : group.WellFormed)
    (wide : group.Wide) : group.Lossless := by
  have consecutive := valid.consecutive_slots wide
  have used := group.total_slots
  have room : group.usedBits ≤ 32 := valid.bounded
  constructor
  · intro slot member
    have inside := consecutive.within member
    omega
  · intro values
    have small := joined_lt group.slots (values.map BitVec.toNat)
    rw [used] at small
    have whole : 2 ^ group.usedBits ≤ 2 ^ 32 := Nat.pow_le_pow_right Nat.two_pos room
    have number : (BitVec.ofNat 32 (joined group.slots (values.map BitVec.toNat))).toNat =
        joined group.slots (values.map BitVec.toNat) :=
      Nat.mod_eq_of_lt (Nat.lt_of_lt_of_le small whole)
    refine ⟨_, _, value_pack consecutive room values, by rwa [number],
      unpack_eq consecutive room _, by simp [group.length_slots], fun index slot found => ?_⟩
    rw [number, List.getElem?_map, getElem?_digits_joined, found]
    cases given : values[index]? <;> simp [given, Slot.bits]
  · intro word
    refine ⟨_, unpack_eq consecutive room word, ?_⟩
    have same : ((digits group.slots word.toNat).map (BitVec.ofNat 32)).map BitVec.toNat =
        digits group.slots word.toNat := by
      rw [List.map_map]
      refine (List.map_congr_left fun digit member => ?_).trans (List.map_id _)
      exact Nat.mod_eq_of_lt (Nat.lt_of_le_of_lt (le_of_mem_digits member) word.isLt)
    rw [value_pack consecutive room, same, joined_digits, used]

namespace Builder

/-- Every field that is placed or waits in the open group has a width. -/
structure Wide (builder : Builder) : Prop where
  placed : ∀ group ∈ builder.layout.packedGroups, group.Wide
  opened : ∀ group, builder.group? = some group → group.Wide

theorem wide_empty : empty.Wide := by
  constructor <;> simp [empty, Builder.layout, Layout.packedGroups]

theorem packedGroups_place (builder : Builder) (name : String) (format : Format)
    (packed : Option PackedGroup) (parts : List (String × Storage)) :
    (builder.place name format packed parts).layout.packedGroups =
      builder.layout.packedGroups ++ packed.toList := by
  rw [layout_place, Layout.packedGroups, List.filterMap_append]
  cases packed <;> rfl

theorem Wide.step {builder : Builder} (wide : builder.Wide) (operation : Operation) :
    (builder.step operation).Wide := by
  have does := builder.does_step operation
  generalize builder.step operation = next at does
  cases does with
  | rejected => exact wide
  | added =>
    refine ⟨?_, wide.opened⟩
    rw [packedGroups_place, Option.toList_none, List.append_nil]
    exact wide.placed
  | opened name? =>
    refine ⟨wide.placed, ?_⟩
    rintro _ ⟨⟩
    simp [PackedGroup.Wide, PackedGroup.empty]
  | extended opened positive free fresh fits =>
    refine ⟨wide.placed, ?_⟩
    rintro _ ⟨⟩
    rw [PackedGroup.Wide, PackedGroup.fields_append, List.forall_mem_append]
    exact ⟨wide.opened _ opened, by simpa using Nat.pos_of_ne_zero positive⟩
  | closed opened filled =>
    refine ⟨?_, by simp [place]⟩
    rw [packedGroups_place, List.forall_mem_append]
    exact ⟨wide.placed, by simpa using wide.opened _ opened⟩
  | dropped => exact ⟨wide.placed, by simp⟩

theorem Wide.steps {builder : Builder} (wide : builder.Wide) (operations : List Operation) :
    (builder.steps operations).Wide :=
  holds_steps (fun _ operation wide => wide.step operation) wide operations

/-- A section does nothing to its builder but call it. -/
theorem keeps_called : Keeps fun builder => ∃ operations, builder = empty.steps operations := by
  refine ⟨fun builder operation called _ => ?_⟩
  obtain ⟨operations, rfl⟩ := called
  exact ⟨operations ++ [operation], by simp [steps]⟩

end Builder

namespace Layout

/-- A layout that calls on a new builder declare, or that a section declares. -/
inductive Declared : Layout → Prop
  | calls (operations : List Operation) : Declared (Builder.layoutOf operations)
  | read {text : Text} {layout : Layout} (answer : (ofSection text).run.value = .ok (some layout)) :
      Declared layout

/-- Sections declare no other layouts than calls do. -/
theorem Declared.exists_operations {layout : Layout} (declared : layout.Declared) :
    ∃ operations, layout = Builder.layoutOf operations := by
  cases declared with
  | calls operations => exact ⟨operations, rfl⟩
  | @read text _ answer =>
    rw [value_ofSection] at answer
    cases read : (Reader.start.lines 1 (Text.lines text)).run.value with
    | error fault => rw [read] at answer; cases answer
    | ok reader =>
      obtain ⟨operations, called⟩ := Builder.keeps_called.lines ⟨[], rfl⟩ read
      rw [read, Except.map, Reader.value_finish] at answer
      split at answer
      next => cases answer
      next =>
        cases answer
        exact ⟨operations, by rw [called, Builder.layoutOf, Builder.value_build]⟩

/-- Every packed group of a declared layout gives its values and its words back. -/
theorem packedGroups_lossless {layout : Layout} (declared : layout.Declared) {group : PackedGroup}
    (member : group ∈ layout.packedGroups) : group.Lossless := by
  obtain ⟨operations, rfl⟩ := declared.exists_operations
  rw [Builder.layoutOf, Builder.value_build] at member
  have valid := Builder.wellFormed_empty.steps operations
  have wide := Builder.wide_empty.steps operations
  obtain ⟨input, present, packed⟩ := List.mem_filterMap.mp member
  exact (valid.layout.groups input present group packed).lossless (wide.placed group member)

/-- A group with two bits to spare after a pair and a single field. -/
def cellText : Text := "packed cell \x7b\nivec2 at 13\nbyte kind 4\n\x7d".toList

def cellGroup : PackedGroup :=
  ⟨"cell", [⟨"at", .int, 2, 13, 0⟩, ⟨"kind", .byte, 1, 4, 26⟩]⟩

def cellLayout : Layout where
  components := [⟨"at", 0, 0, .packed ⟨"at", .int, 2, 13, 0⟩⟩,
    ⟨"kind", 1, 0, .packed ⟨"kind", .byte, 1, 4, 26⟩⟩]
  attributes := [⟨"cell", .word, 0, some cellGroup⟩]
  stride := 4

/-- A group with one field as wide as the word, and no room for another. -/
def fullCalls : List Operation :=
  [.beginPacked none, .addPackedField "all" .int 1 32, .addPackedField "more" .byte 1 1, .endPacked]

def fullGroup : PackedGroup := ⟨"packed0", [⟨"all", .int, 1, 32, 0⟩]⟩

theorem packedGroups_lossless_cells :
    (ofSection cellText).run.value = .ok (some cellLayout) ∧
      cellGroup ∈ cellLayout.packedGroups ∧ cellGroup.Lossless ∧
      (cellGroup.pack [0x3FFF, 5]).run.value = .ok 0xBFFF ∧
      cellGroup.unpack 0xBFFF = .ok [0x1FFF, 5, 0] ∧
      fullGroup ∈ (Builder.layoutOf fullCalls).packedGroups ∧ fullGroup.Lossless := by
  have read : (ofSection cellText).run.value = .ok (some cellLayout) := by rfl
  have cell : cellGroup ∈ cellLayout.packedGroups := by decide
  have full : fullGroup ∈ (Builder.layoutOf fullCalls).packedGroups := by decide +kernel
  exact ⟨read, cell, packedGroups_lossless (.read read) cell, by rfl, by rfl, full,
    packedGroups_lossless (.calls fullCalls) full⟩

end Layout

end ShaderPipeline.Vertex
