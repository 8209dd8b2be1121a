import Mathlib.Algebra.Group.Nat.Defs
import ShaderPipeline.Gpu.VertexBuffer
import ShaderPipeline.Proofs.Vertex.Operations

/-! Vertex buffers of built layouts. A layout has a buffer if each of its attributes has a format,
and the ranges of the buffer's attributes then take every byte of the vertex once. -/

namespace ShaderPipeline.Gpu

open Vertex

/-- The byte behind the last one of an attribute. -/
def VertexAttribute.finish (entry : VertexAttribute) : Nat := entry.offset + entry.format.size

/-- What a buffer says of the attribute at a location. -/
structure VertexAttribute.Describes (entry : VertexAttribute) (input : Attribute)
    (location : Nat) : Prop where
  format : vertexFormat? input.format = some entry.format
  size : entry.format.size = input.size
  offset : entry.offset = input.offset
  location : entry.location = location

/-- A buffer covers the bytes of a layout's vertices, each with one attribute. -/
structure VertexBuffer.Covers (buffer : VertexBuffer) (layout : Layout) : Prop where
  length : buffer.attributes.length = layout.attributes.length
  describes : ∀ (index : Nat) (entry : VertexAttribute), buffer.attributes[index]? = some entry →
    ∃ input, layout.attributes[index]? = some input ∧ entry.Describes input index
  first : ∀ entry ∈ buffer.attributes.head?, entry.offset = 0
  consecutive : ∀ (index : Nat) (entry next : VertexAttribute),
    buffer.attributes[index]? = some entry → buffer.attributes[index + 1]? = some next →
    next.offset = entry.finish
  filled : ∀ entry ∈ buffer.attributes, entry.offset < entry.finish
  disjoint : buffer.attributes.Pairwise fun earlier later => earlier.finish ≤ later.offset
  stride : buffer.stride = (buffer.attributes.getLast?.map VertexAttribute.finish).getD 0
  /-- Every byte of a vertex is in the range of an attribute, and no other byte is. -/
  exact : ∀ byte, byte < buffer.stride ↔
    ∃ entry ∈ buffer.attributes, entry.offset ≤ byte ∧ byte < entry.finish
  /-- Locations and byte positions are numbers of 32 bits. -/
  narrow : ∀ entry ∈ buffer.attributes, entry.location < 2 ^ 32 ∧ entry.finish < 2 ^ 32

/-- A format takes the bytes of the attributes it is for. -/
theorem size_of_vertexFormat? {format : Format} {found : VertexFormat}
    (known : vertexFormat? format = some found) : found.size = format.size ∧ 0 < found.size := by
  obtain ⟨scalar, count, normalized⟩ := format
  unfold vertexFormat? at known
  split at known <;> cases known <;> simp_all [VertexFormat.size, Format.size, Scalar.size]

private theorem value_describe_cons (location : Nat) (input : Attribute) (rest : List Attribute) :
    (describe location (input :: rest)).value =
      match vertexFormat? input.format with
      | none => none
      | some format =>
        (describe (location + 1) rest).value.map (⟨format, input.offset, location⟩ :: ·) := by
  rw [describe]
  cases vertexFormat? input.format <;> rfl

private theorem describe_eq_none_iff {location : Nat} {inputs : List Attribute} :
    (describe location inputs).value = none ↔
      ∃ input ∈ inputs, vertexFormat? input.format = none := by
  induction inputs generalizing location with
  | nil => exact iff_of_false nofun (by simp)
  | cons input rest ih =>
    rw [value_describe_cons]
    cases known : vertexFormat? input.format with
    | none => simp [known]
    | some format => simp [known, ih]

private theorem describes_of_describe {location : Nat} {inputs : List Attribute}
    {entries : List VertexAttribute} (described : (describe location inputs).value = some entries) :
    entries.length = inputs.length ∧
      ∀ (index : Nat) (entry : VertexAttribute), entries[index]? = some entry →
        ∃ input, inputs[index]? = some input ∧ entry.Describes input (location + index) := by
  induction inputs generalizing location entries with
  | nil =>
    cases described
    exact ⟨rfl, nofun⟩
  | cons input rest ih =>
    rw [value_describe_cons] at described
    cases known : vertexFormat? input.format with
    | none => rw [known] at described; cases described
    | some format =>
      rw [known] at described
      obtain ⟨others, later, rfl⟩ := Option.map_eq_some_iff.mp described
      obtain ⟨length, each⟩ := ih later
      refine ⟨by simp [length], fun index entry found => ?_⟩
      cases index with
      | zero =>
        cases found
        exact ⟨input, rfl, known, (size_of_vertexFormat? known).1, rfl, rfl⟩
      | succ index =>
        obtain ⟨other, here, describes⟩ := each index entry found
        exact ⟨other, here, by rwa [Nat.add_right_comm] at describes⟩

section Ranges

variable {layout : Layout} {entries : List VertexAttribute}
  (described : (describe 0 layout.attributes).value = some entries)
include described

private theorem exists_described {index : Nat} {entry : VertexAttribute}
    (found : entries[index]? = some entry) :
    ∃ input, layout.attributes[index]? = some input ∧ entry.Describes input index := by
  obtain ⟨input, here, describes⟩ := (describes_of_describe described).2 index entry found
  exact ⟨input, here, by rwa [Nat.zero_add] at describes⟩

variable (valid : layout.Consistent)
include valid

/-- The range of an entry lies between the sums of the sizes before it and up to it. -/
theorem range_of_describe {index : Nat} {entry : VertexAttribute}
    (found : entries[index]? = some entry) :
    entry.offset = runningSum Attribute.size layout.attributes index ∧
      entry.finish = runningSum Attribute.size layout.attributes (index + 1) ∧
      entry.offset < entry.finish := by
  obtain ⟨input, here, describes⟩ := exists_described described found
  have filled := (size_of_vertexFormat? describes.format).2
  have offset := valid.offset index input here
  rw [runningSum_succ _ _ here, VertexAttribute.finish, describes.size, describes.offset, offset]
  rw [describes.size] at filled
  omega

private theorem exact_of_describe (byte : Nat) :
    byte < layout.stride ↔ ∃ entry ∈ entries, entry.offset ≤ byte ∧ byte < entry.finish := by
  rw [valid.stride, lt_total_iff]
  constructor
  · rintro ⟨index, input, found, lower, upper⟩
    obtain ⟨bound, -⟩ := List.getElem?_eq_some_iff.mp found
    rw [← (describes_of_describe described).1] at bound
    have here := List.getElem?_eq_getElem bound
    obtain ⟨offset, finish, -⟩ := range_of_describe described valid here
    rw [← runningSum_succ _ _ found] at upper
    exact ⟨entries[index], List.getElem_mem bound, offset ▸ lower, finish ▸ upper⟩
  · rintro ⟨entry, member, lower, upper⟩
    obtain ⟨index, found⟩ := List.getElem?_of_mem member
    obtain ⟨input, here, -⟩ := exists_described described found
    obtain ⟨offset, finish, -⟩ := range_of_describe described valid found
    rw [runningSum_succ _ _ here] at finish
    exact ⟨index, input, here, offset ▸ lower, finish ▸ upper⟩

/-- Each attribute takes a byte, so there are no more attributes than bytes before them. -/
theorem le_offset_of_describe {index : Nat} {entry : VertexAttribute}
    (found : entries[index]? = some entry) : index ≤ entry.offset := by
  induction index generalizing entry with
  | zero => exact Nat.zero_le _
  | succ index ih =>
    obtain ⟨bound, -⟩ := List.getElem?_eq_some_iff.mp found
    have before := List.getElem?_eq_getElem (Nat.lt_of_succ_lt bound)
    obtain ⟨-, finish, filled⟩ := range_of_describe described valid before
    obtain ⟨offset, -, -⟩ := range_of_describe described valid found
    have earlier := ih before
    omega

private theorem finish_le_of_describe {index : Nat} {entry : VertexAttribute}
    (found : entries[index]? = some entry) : entry.finish ≤ layout.stride := by
  obtain ⟨input, here, -⟩ := exists_described described found
  obtain ⟨bound, -⟩ := List.getElem?_eq_some_iff.mp here
  obtain ⟨-, finish, -⟩ := range_of_describe described valid found
  rw [finish, valid.stride, ← runningSum_length]
  exact runningSum_mono _ _ bound

/-- The buffer of a layout covers it, if the layout's bytes can be counted in 32 bits. -/
theorem covers_of_describe (fits : layout.stride < 2 ^ 32) (step : StepMode) :
    VertexBuffer.Covers ⟨layout.stride, step, entries⟩ layout where
  length := (describes_of_describe described).1
  describes index entry found := exists_described described found
  first entry head := by
    rw [List.head?_eq_getElem?] at head
    exact (range_of_describe described valid head).1
  consecutive index entry next here behind := by
    rw [(range_of_describe described valid behind).1, (range_of_describe described valid here).2.1]
  filled entry member := by
    obtain ⟨index, found⟩ := List.getElem?_of_mem member
    exact (range_of_describe described valid found).2.2
  disjoint := by
    rw [List.pairwise_iff_getElem]
    intro first second firstBound secondBound before
    obtain ⟨-, finish, -⟩ :=
      range_of_describe described valid (List.getElem?_eq_getElem firstBound)
    obtain ⟨offset, -, -⟩ :=
      range_of_describe described valid (List.getElem?_eq_getElem secondBound)
    rw [finish, offset]
    exact runningSum_mono _ _ before
  stride := by
    have length := (describes_of_describe described).1
    dsimp only
    rw [valid.stride, ← runningSum_length, ← length, List.getLast?_eq_getElem?]
    cases entries with
    | nil => rfl
    | cons entry rest =>
      have last := List.getElem?_eq_getElem (show rest.length < (entry :: rest).length by simp)
      rw [List.length_cons, Nat.add_sub_cancel, last, Option.map_some, Option.getD_some,
        (range_of_describe described valid last).2.1]
  exact := exact_of_describe described valid
  narrow entry member := by
    obtain ⟨index, found⟩ := List.getElem?_of_mem member
    obtain ⟨input, here, describes⟩ := exists_described described found
    have position := le_offset_of_describe described valid found
    have finish := finish_le_of_describe described valid found
    have filled := (range_of_describe described valid found).2.2
    have location := describes.location
    omega

end Ranges

/-- A layout has a buffer unless an attribute of it has no format, and the buffer covers it. -/
theorem ofLayout?_covers (operations : List Operation) (step : StepMode)
    (fits : total Attribute.size (Builder.layoutOf operations).attributes < 2 ^ 32) :
    ((VertexBuffer.ofLayout? (Builder.layoutOf operations) step).value = none ↔
      ∃ input ∈ (Builder.layoutOf operations).attributes, vertexFormat? input.format = none) ∧
    ∀ buffer, (VertexBuffer.ofLayout? (Builder.layoutOf operations) step).value = some buffer →
      buffer.step = step ∧ buffer.stride = (Builder.layoutOf operations).stride ∧
        buffer.Covers (Builder.layoutOf operations) := by
  have valid := (Builder.layoutOf_wellFormed operations).toConsistent
  rw [← valid.stride] at fits
  rw [VertexBuffer.ofLayout?, Logged.value_bind, Logged.value_pure]
  refine ⟨?_, fun buffer found => ?_⟩
  · rw [Option.map_eq_none_iff, describe_eq_none_iff]
  · obtain ⟨entries, described, rfl⟩ := Option.map_eq_some_iff.mp found
    exact ⟨rfl, rfl, covers_of_describe described valid fits step⟩

/-- An attribute of floats, a packed group and a normalized color. -/
def interleaved : List Operation :=
  [.add "position" ⟨.float, 3, false⟩, .beginPacked none, .addPackedField "cell" .int 3 8,
    .endPacked, .add "color" ⟨.byte, 4, true⟩]

def interleavedBuffer : VertexBuffer where
  stride := 20
  step := .perVertex
  attributes := [⟨.float32x3, 0, 0⟩, ⟨.sint32, 12, 1⟩, ⟨.snorm8x4, 16, 2⟩]

theorem ofLayout?_covers_interleaved :
    total Attribute.size (Builder.layoutOf interleaved).attributes < 2 ^ 32 ∧
      (VertexBuffer.ofLayout? (Builder.layoutOf interleaved) .perVertex).value =
        some interleavedBuffer ∧ interleavedBuffer.Covers (Builder.layoutOf interleaved) := by
  have fits : total Attribute.size (Builder.layoutOf interleaved).attributes < 2 ^ 32 := by decide
  have made : (VertexBuffer.ofLayout? (Builder.layoutOf interleaved) .perVertex).value =
      some interleavedBuffer := by decide
  exact ⟨fits, made, ((ofLayout?_covers interleaved .perVertex fits).2 _ made).2.2⟩

/-- Three bytes have no format, so a layout with such an attribute has no buffer. -/
example : (VertexBuffer.ofLayout? (Builder.layoutOf [.add "normal" ⟨.byte, 3, true⟩])
    .perVertex).value = none := by decide

end ShaderPipeline.Gpu
