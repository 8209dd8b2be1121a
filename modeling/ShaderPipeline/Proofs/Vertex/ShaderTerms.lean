import Mathlib.Data.List.Forall2
import ShaderPipeline.Proofs.Text.Numerals
import ShaderPipeline.Proofs.Vertex.LosslessGroups

/-! The shader's reading of packed groups. The statements that a layout emits are read as the shader
reads them, with the group as a signed integer that is shifted arithmetically. They declare what
unpacking gives, since the sign never reaches the bits that a mask keeps. -/

namespace ShaderPipeline.Vertex

/-! ### Shader text -/

/-- The value of a decimal literal. With a zero in front it would be octal. -/
def decimalLiteral? (literal : Text) : Option Nat :=
  if literal = [] ∨ (literal.head? = some '0' ∧ literal ≠ ['0']) then none
  else Text.digitsValue? 10 0 literal

/-- The bits of a hexadecimal literal. -/
def hexadecimalLiteral? (literal : Text) : Option Word := do
  let digits ← Text.dropStart? ['0', 'x'] literal
  let value ← if digits.isEmpty then none else Text.digitsValue? 16 0 digits
  if value < 2 ^ 32 then some (BitVec.ofNat 32 value) else none

/-- A term that shifts a group and masks it. -/
def extractionText (group shift mask : String) : String := s!"({group} >> {shift}) & {mask}"

/-- What a term comes to that shifts a group and masks it, where the group is the signed integer of
the given bits. A shift is less than the width of an integer. -/
inductive Yields (group : String) (word : Word) : (term : String) → Word → Prop
  | extraction {shift mask : String} {amount : Nat} {bits : Word}
      (decimal : decimalLiteral? shift.toList = some amount) (inside : amount < 32)
      (hexadecimal : hexadecimalLiteral? mask.toList = some bits) :
      Yields group word (extractionText group shift mask) (word.sshiftRight amount &&& bits)

/-- The declaration of an integer. -/
def scalarStatement (name term : String) : String := s!"int {name} = {term};"

/-- The declaration of a vector with a term for each component. -/
def vectorStatement (name : String) (terms : List String) : String :=
  let type := s!"ivec{terms.length}"
  let components := ", ".intercalate terms
  s!"{type} {name} = {type}({components});"

/-- What a statement declares: a name, and the values of its components. -/
inductive Declares (group : String) (word : Word) : (statement : String) → String × List Word → Prop
  | scalar {name term : String} {value : Word} (yields : Yields group word term value) :
      Declares group word (scalarStatement name term) (name, [value])
  | vector {name : String} {terms : List String} {values : List Word} (several : terms.length ≠ 1)
      (yields : List.Forall₂ (Yields group word) terms values) :
      Declares group word (vectorStatement name terms) (name, values)

private theorem decimalLiteral?_toString (number : Nat) :
    decimalLiteral? (toString number).toList = some number := by
  have digits : (toString number).toList = Nat.toDigits 10 number := String.toList_ofList
  have plain : ¬ (Nat.toDigits 10 number = [] ∨
      ((Nat.toDigits 10 number).head? = some '0' ∧ Nat.toDigits 10 number ≠ ['0'])) := by
    rintro (empty | ⟨zero, more⟩)
    · exact Nat.toDigits_ne_nil empty
    · rw [Text.eq_zero_of_head?_toDigits zero] at more
      exact more rfl
  rw [digits, decimalLiteral?, if_neg plain, Text.digitsValue?_toDigits]

private theorem hexadecimalLiteral?_upperHex (word : Word) :
    hexadecimalLiteral? ("0x" ++ Text.upperHex word.toNat).toList = some word := by
  have cut : Text.dropStart? ['0', 'x'] ("0x" ++ Text.upperHex word.toNat).toList =
      some (Text.upperHex word.toNat).toList := by
    rw [String.toList_append]
    rfl
  rw [hexadecimalLiteral?, cut]
  simp only [Option.bind_eq_bind, Option.bind_some, List.isEmpty_iff, Text.upperHex_ne_nil,
    ↓reduceIte, Text.digitsValue?_upperHex, word.isLt, BitVec.ofNat_toNat, BitVec.setWidth_eq]

/-! ### Words under a mask -/

namespace PackedField

private theorem getLsbD_mask {field : PackedField} (fits : field.bits ≤ 32) (index : Nat) :
    field.mask.getLsbD index = decide (index < field.bits) := by
  rw [mask, BitVec.getLsbD_ofNat, Nat.one_shiftLeft, Nat.testBit_two_pow_sub_one,
    Nat.min_eq_left fits]
  by_cases inside : index < field.bits
  · simp [inside, Nat.lt_of_lt_of_le inside fits]
  · simp [inside]

/-- The copies of the sign that an arithmetic shift brings in lie above the bits of the field. -/
theorem sshiftRight_and_mask {field : PackedField} {shift : Nat} (room : shift + field.bits ≤ 32)
    (word : Word) : word.sshiftRight shift &&& field.mask = (word >>> shift) &&& field.mask := by
  refine BitVec.eq_of_getLsbD_eq fun index bound => ?_
  rw [BitVec.getLsbD_and, BitVec.getLsbD_and, getLsbD_mask (by omega), BitVec.getLsbD_sshiftRight,
    BitVec.getLsbD_ushiftRight]
  by_cases kept : index < field.bits
  · have above : shift + index < 32 := by omega
    simp [kept, above, Nat.not_le.mpr bound]
  · simp [kept]

/-- The components of a field, read from a word. -/
def components (field : PackedField) (word : Word) : List Word :=
  field.slots.map fun slot => (word >>> slot.offset) &&& slot.field.mask

/-- The term of a component comes to the component. -/
theorem yields_text {slot : Slot} (wide : 0 < slot.bits) (room : slot.offset + slot.bits ≤ 32)
    (group : String) (word : Word) :
    Yields group word (Extraction.text ⟨group, slot.offset, slot.field.mask⟩)
      ((word >>> slot.offset) &&& slot.field.mask) := by
  have inside : slot.offset < 32 := by omega
  have term : Yields group word _ _ :=
    .extraction (decimalLiteral?_toString slot.offset) inside
      (hexadecimalLiteral?_upperHex slot.field.mask)
  rw [sshiftRight_and_mask room] at term
  have written : Extraction.text ⟨group, slot.offset, slot.field.mask⟩ =
      extractionText group (toString slot.offset)
        ("0x" ++ Text.upperHex slot.field.mask.toNat) := by
    have sign : ") & 0x" = ") & " ++ "0x" := rfl
    simp only [Extraction.text, extractionText, toString, sign, String.append_assoc]
  rw [written]
  exact term

/-- The statement of a field declares its components. -/
theorem declares_unpackStatement {field : PackedField}
    (room : ∀ slot ∈ field.slots, 0 < slot.bits ∧ slot.offset + slot.bits ≤ 32) (group : String)
    (word : Word) :
    Declares group word (field.unpackStatement group) (field.name, field.components word) := by
  have terms : List.Forall₂ (Yields group word) ((field.extractions group).map Extraction.text)
      (field.components word) := by
    rw [extractions, components, List.map_map, List.forall₂_map_left_iff,
      List.forall₂_map_right_iff, List.forall₂_same]
    intro slot member
    obtain ⟨wide, ends⟩ := room slot member
    have own : slot.field = field := by
      obtain ⟨component, _, rfl⟩ := List.mem_map.mp member
      rfl
    have term := yields_text wide ends group word
    rwa [own] at term ⊢
  have length : ((field.extractions group).map Extraction.text).length = field.count := by
    rw [List.length_map, extractions, List.length_map, length_slots]
  by_cases single : field.count = 1
  · obtain ⟨term, alone⟩ := List.length_eq_one_iff.mp (length.trans single)
    rw [alone] at terms
    obtain ⟨value, rest, yields, none, values⟩ := List.forall₂_cons_left_iff.mp terms
    rw [List.forall₂_nil_left_iff.mp none] at values
    have statement : field.unpackStatement group = scalarStatement field.name term := by
      rw [unpackStatement, alone, if_pos single, shaderType, if_pos single]
      rfl
    rw [statement, values]
    exact .scalar yields
  · have statement : field.unpackStatement group =
        vectorStatement field.name ((field.extractions group).map Extraction.text) := by
      rw [unpackStatement, vectorStatement, length, if_neg single, shaderType, if_neg single]
      rfl
    rw [statement]
    exact .vector (by rwa [length]) terms

end PackedField

namespace PackedGroup

/-- Unpacking reads the components of the fields in a row. -/
theorem unpack_eq_components {group : PackedGroup} (shifts : ∀ slot ∈ group.slots, slot.offset < 32)
    (word : Word) :
    group.unpack word = .ok (group.fields.flatMap fun field => field.components word) := by
  have reads (slots : List Slot) (shifts : ∀ slot ∈ slots, slot.offset < 32) :
      (slots.mapM fun slot =>
        if slot.offset ≥ 32 then Except.error Overflow.shiftRight
        else .ok ((word >>> slot.offset) &&& slot.field.mask)) =
        .ok (slots.map fun slot => (word >>> slot.offset) &&& slot.field.mask) := by
    induction slots with
    | nil => rfl
    | cons slot rest ih =>
      obtain ⟨own, others⟩ := List.forall_mem_cons.mp shifts
      rw [List.mapM_cons, if_neg (Nat.not_le.mpr own), ih others]
      rfl
  rw [unpack, reads group.slots shifts, slots, List.map_flatMap]
  rfl

/-- The statements of a group declare its fields in order, and together what unpacking gives. -/
theorem declares_unpackStatements {group : PackedGroup} (valid : group.WellFormed)
    (wide : group.Wide) (word : Word) :
    ∃ declared : List (String × List Word),
      declared.map Prod.fst = group.fields.map PackedField.name ∧
      List.Forall₂ (Declares group.name word) group.unpackStatements declared ∧
      group.unpack word = .ok (declared.flatMap Prod.snd) := by
  have consecutive := valid.consecutive_slots wide
  have used := group.total_slots
  have bounded : group.usedBits ≤ 32 := valid.bounded
  have room : ∀ slot ∈ group.slots, 0 < slot.bits ∧ slot.offset + slot.bits ≤ 32 := by
    intro slot member
    have inside := consecutive.within member
    omega
  refine ⟨group.fields.map fun field => (field.name, field.components word), ?_, ?_, ?_⟩
  · rw [List.map_map]
    rfl
  · rw [unpackStatements, List.forall₂_map_left_iff, List.forall₂_map_right_iff, List.forall₂_same]
    intro field member
    exact field.declares_unpackStatement (fun slot inside =>
      room slot (List.mem_flatMap.mpr ⟨field, member, inside⟩)) group.name word
  · rw [unpack_eq_components fun slot member => ?_, List.flatMap_map]
    obtain ⟨first, ends⟩ := room slot member
    omega

end PackedGroup

namespace Layout

/-- In a layout that calls declare, fields lie side by side with a bit for each component. -/
theorem of_packed {operations : List Operation} {input : Attribute}
    (member : input ∈ (Builder.layoutOf operations).attributes) {group : PackedGroup}
    (packed : input.packed = some group) : group.WellFormed ∧ group.Wide := by
  rw [Builder.layoutOf, Builder.value_build] at member
  have valid := Builder.wellFormed_empty.steps operations
  have wide := Builder.wide_empty.steps operations
  exact ⟨valid.layout.groups input member group packed,
    wide.placed group (List.mem_filterMap.mpr ⟨input, member, packed⟩)⟩

/-- The statements of a layout are those of its attributes in order. -/
theorem unpackStatements_eq (layout : Layout) :
    layout.unpackStatements = "\n".intercalate
      (layout.attributes.flatMap fun input =>
        input.packed.toList.flatMap PackedGroup.unpackStatements) := by
  rw [unpackStatements, packedGroups, List.filterMap_eq_flatMap_toList, List.flatMap_assoc]

/-- Of every layout that calls declare, a plain attribute has no statement, and a packed one has a
statement for each field of its group, in order. Whatever word the group holds, its statements
declare its fields, and their terms come to the values that unpacking gives. -/
theorem unpackStatements_agree (operations : List Operation) :
    let layout := Builder.layoutOf operations
    ∃ statements : List (List String),
      layout.unpackStatements = "\n".intercalate statements.flatten ∧
      List.Forall₂ (fun input lines =>
        (input.packed = none → lines = []) ∧
        ∀ group, input.packed = some group → lines.length = group.fields.length ∧
          ∀ word : Word, ∃ declared : List (String × List Word),
            declared.map Prod.fst = group.fields.map PackedField.name ∧
            List.Forall₂ (Declares group.name word) lines declared ∧
            group.unpack word = .ok (declared.flatMap Prod.snd))
        layout.attributes statements := by
  intro layout
  refine ⟨layout.attributes.map fun input =>
    input.packed.toList.flatMap PackedGroup.unpackStatements, ?_, ?_⟩
  · rw [unpackStatements_eq, List.flatMap_def]
  · rw [List.forall₂_map_right_iff, List.forall₂_same]
    intro input member
    refine ⟨fun plain => by rw [plain]; rfl, fun group packed => ?_⟩
    obtain ⟨valid, wide⟩ := of_packed member packed
    rw [packed, Option.toList_some, List.flatMap_singleton]
    exact ⟨by simp [PackedGroup.unpackStatements], group.declares_unpackStatements valid wide⟩

/-- A plain attribute, and a group whose last field holds the sign of the word. -/
def signedCalls : List Operation :=
  [.add "at" ⟨.float, 3, false⟩, .beginPacked (some "cell"), .addPackedField "kind" .int 1 4,
    .addPackedField "tint" .int 3 8, .addPackedField "top" .int 1 4, .endPacked]

theorem unpackStatements_agree_signed :
    let text := "int kind = (cell >> 0) & 0xF;\n" ++
      "ivec3 tint = ivec3((cell >> 4) & 0xFF, (cell >> 12) & 0xFF, (cell >> 20) & 0xFF);\n" ++
      "int top = (cell >> 28) & 0xF;"
    (Builder.layoutOf signedCalls).unpackStatements = text ∧
      ∃ lines : List String, lines.length = 3 ∧ text = "\n".intercalate lines ∧
        ∃ declared : List (String × List Word),
          declared.map Prod.fst = ["kind", "tint", "top"] ∧
          List.Forall₂ (Declares "cell" 0xF0A0B0C3) lines declared ∧
          declared.flatMap Prod.snd = [3, 0x0C, 0x0B, 0x0A, 15] := by
  intro text
  have printed : (Builder.layoutOf signedCalls).unpackStatements = text := by decide +kernel
  let group : PackedGroup :=
    ⟨"cell", [⟨"kind", .int, 1, 4, 0⟩, ⟨"tint", .int, 3, 8, 4⟩, ⟨"top", .int, 1, 4, 28⟩]⟩
  have inputs : (Builder.layoutOf signedCalls).attributes =
      [⟨"at", ⟨.float, 3, false⟩, 0, none⟩, ⟨"cell", .word, 12, some group⟩] := by decide +kernel
  have unpacked : group.unpack 0xF0A0B0C3 = .ok [3, 0x0C, 0x0B, 0x0A, 15] := by rfl
  obtain ⟨statements, text', agree⟩ := unpackStatements_agree signedCalls
  rw [inputs] at agree
  obtain ⟨absent, _, plain, behind, rfl⟩ := List.forall₂_cons_left_iff.mp agree
  obtain ⟨lines, _, packed, ended, rfl⟩ := List.forall₂_cons_left_iff.mp behind
  obtain rfl := List.forall₂_nil_left_iff.mp ended
  obtain ⟨length, declares⟩ := packed.2 group rfl
  obtain ⟨declared, names, each, values⟩ := declares 0xF0A0B0C3
  refine ⟨printed, lines, length, ?_, declared, names, each, ?_⟩
  · rw [← printed, text', plain.1 rfl]
    simp
  · rw [unpacked] at values
    exact (Except.ok.inj values).symm

end Layout

end ShaderPipeline.Vertex
