import Mathlib.Algebra.Group.Nat.Defs
import ShaderPipeline.Proofs.Logged
import ShaderPipeline.Proofs.Vertex.PackedGroups

/-! The word of a packed group as a number. Its digits are the components, the first one lowest, and
a component of `b` bits is a digit to the base `2 ^ b`. Packing writes the digits of a number and
unpacking reads them, so each undoes the other up to the bits that there is no room for. -/

namespace ShaderPipeline.Vertex

/-! ### Numbers by their digits -/

def Slot.bits (slot : Slot) : Nat := slot.field.bits

/-- The number with the given digits. A missing digit is zero, and a digit is cut to its slot. -/
def joined : List Slot → List Nat → Nat
  | [], _ => 0
  | slot :: rest, values =>
    values.headD 0 % 2 ^ slot.bits + 2 ^ slot.bits * joined rest values.tail

/-- The digits of a number, one for each slot. -/
def digits : List Slot → Nat → List Nat
  | [], _ => []
  | slot :: rest, number => number % 2 ^ slot.bits :: digits rest (number / 2 ^ slot.bits)

private theorem add_two_pow_mul_lt {low high first second : Nat} (below : low < 2 ^ first)
    (bound : high < 2 ^ second) : low + 2 ^ first * high < 2 ^ (first + second) :=
  calc low + 2 ^ first * high
      < 2 ^ first * (high + 1) := by rw [Nat.mul_add]; omega
    _ ≤ 2 ^ first * 2 ^ second := Nat.mul_le_mul_left _ bound
    _ = 2 ^ (first + second) := (Nat.pow_add 2 first second).symm

theorem joined_lt (slots : List Slot) (values : List Nat) :
    joined slots values < 2 ^ total Slot.bits slots := by
  induction slots generalizing values with
  | nil => exact Nat.one_pos
  | cons slot rest ih =>
    exact add_two_pow_mul_lt (Nat.mod_lt _ (Nat.two_pow_pos slot.bits)) (ih values.tail)

@[simp] theorem length_digits (slots : List Slot) (number : Nat) :
    (digits slots number).length = slots.length := by
  induction slots generalizing number with
  | nil => rfl
  | cons slot rest ih => rw [digits, List.length_cons, ih, List.length_cons]

theorem le_of_mem_digits {slots : List Slot} {number digit : Nat}
    (member : digit ∈ digits slots number) : digit ≤ number := by
  induction slots generalizing number with
  | nil => cases member
  | cons slot rest ih =>
    rcases List.mem_cons.mp member with rfl | later
    · exact Nat.mod_le _ _
    · exact Nat.le_trans (ih later) (Nat.div_le_self _ _)

/-- The digits of a number are the values that it was made of. -/
theorem getElem?_digits_joined (slots : List Slot) (values : List Nat) (index : Nat) :
    (digits slots (joined slots values))[index]? =
      slots[index]?.map fun slot => (values[index]?).getD 0 % 2 ^ slot.bits := by
  induction slots generalizing values index with
  | nil => rfl
  | cons slot rest ih =>
    have first : joined (slot :: rest) values % 2 ^ slot.bits =
        values.headD 0 % 2 ^ slot.bits := by
      rw [joined, Nat.add_mul_mod_self_left, Nat.mod_mod]
    have others : joined (slot :: rest) values / 2 ^ slot.bits = joined rest values.tail := by
      rw [joined, Nat.add_mul_div_left _ _ (Nat.two_pow_pos _),
        Nat.div_eq_of_lt (Nat.mod_lt _ (Nat.two_pow_pos _)), Nat.zero_add]
    rw [digits, first, others]
    cases index with
    | zero => cases values <;> rfl
    | succ index =>
      rw [List.getElem?_cons_succ, List.getElem?_cons_succ, ih, List.getElem?_tail]

theorem joined_digits (slots : List Slot) (number : Nat) :
    joined slots (digits slots number) = number % 2 ^ total Slot.bits slots := by
  induction slots generalizing number with
  | nil => exact (Nat.mod_one number).symm
  | cons slot rest ih =>
    rw [digits, joined, List.headD_cons, List.tail_cons, ih, Nat.mod_mod, total_cons, Nat.pow_add,
      Nat.mod_mul]

/-! ### Slots side by side -/

/-- The slots take consecutive bits from `start` on, each at least one. -/
def Consecutive : Nat → List Slot → Prop
  | _, [] => True
  | start, slot :: rest =>
    slot.offset = start ∧ 0 < slot.bits ∧ Consecutive (start + slot.bits) rest

private theorem consecutive_append {start : Nat} {first second : List Slot} :
    Consecutive start (first ++ second) ↔
      Consecutive start first ∧ Consecutive (start + total Slot.bits first) second := by
  induction first generalizing start with
  | nil => simp [Consecutive]
  | cons slot rest ih => simp [Consecutive, ih, Nat.add_assoc, and_assoc]

/-- A slot has a bit, and ends inside the bits that are taken. -/
theorem Consecutive.within {start : Nat} {slots : List Slot}
    (consecutive : Consecutive start slots) {slot : Slot} (member : slot ∈ slots) :
    0 < slot.bits ∧ slot.offset + slot.bits ≤ start + total Slot.bits slots := by
  induction slots generalizing start with
  | nil => cases member
  | cons first rest ih =>
    obtain ⟨rfl, wide, follows⟩ := consecutive
    rw [total_cons]
    rcases List.mem_cons.mp member with rfl | later
    · omega
    · have inside := ih follows later
      omega

namespace PackedField

theorem length_slots (field : PackedField) : field.slots.length = field.count := by simp [slots]

/-- The components of a field lie side by side. -/
theorem consecutive_slots {field : PackedField} (wide : 0 < field.bits) :
    Consecutive field.offset field.slots := by
  have from_component (first count : Nat) :
      Consecutive (field.componentOffset first)
        ((List.range' first count).map fun component =>
          ⟨field, field.componentOffset component⟩) := by
    induction count generalizing first with
    | zero => trivial
    | succ count ih =>
      have next : field.componentOffset first + field.bits = field.componentOffset (first + 1) := by
        rw [componentOffset, componentOffset, Nat.mul_add, Nat.mul_one, Nat.add_assoc]
      rw [List.range'_succ, List.map_cons]
      refine ⟨rfl, wide, ?_⟩
      rw [Slot.bits, next]
      exact ih (first + 1)
  have whole := from_component 0 field.count
  rwa [componentOffset, Nat.mul_zero, Nat.add_zero, ← List.range_eq_range'] at whole

private theorem total_slots (field : PackedField) :
    total Slot.bits field.slots = field.totalBits := by
  have each (components : List Nat) :
      total Slot.bits (components.map fun component =>
        (⟨field, field.componentOffset component⟩ : Slot)) = field.bits * components.length := by
    induction components with
    | nil => rfl
    | cons component rest ih =>
      rw [List.map_cons, total_cons, ih, List.length_cons, Slot.bits, Nat.mul_add, Nat.mul_one,
        Nat.add_comm]
  rw [slots, each, List.length_range, totalBits]

end PackedField

namespace PackedGroup

/-- Every component has at least one bit. -/
def Wide (group : PackedGroup) : Prop := ∀ field ∈ group.fields, 0 < field.bits

theorem length_slots (group : PackedGroup) : group.slots.length = group.componentCount := by
  rw [slots, componentCount]
  induction group.fields with
  | nil => rfl
  | cons field rest ih =>
    rw [List.flatMap_cons, List.length_append, ih, field.length_slots, total_cons]

theorem total_slots (group : PackedGroup) : total Slot.bits group.slots = group.usedBits := by
  rw [slots, usedBits]
  induction group.fields with
  | nil => rfl
  | cons field rest ih => rw [List.flatMap_cons, total_append, ih, field.total_slots, total_cons]

theorem WellFormed.consecutive_slots {group : PackedGroup} (valid : group.WellFormed)
    (wide : group.Wide) : Consecutive 0 group.slots := by
  have from_bit (fields : List PackedField) (start : Nat)
      (offsets : ∀ index field, fields[index]? = some field →
        field.offset = start + runningSum PackedField.totalBits fields index)
      (wide : ∀ field ∈ fields, 0 < field.bits) :
      Consecutive start (fields.flatMap PackedField.slots) := by
    induction fields generalizing start with
    | nil => trivial
    | cons field rest ih =>
      obtain ⟨own, others⟩ := List.forall_mem_cons.mp wide
      have first : field.offset = start := offsets 0 field rfl
      rw [List.flatMap_cons, consecutive_append, field.total_slots]
      refine ⟨first ▸ PackedField.consecutive_slots own, ih _ (fun index later found => ?_) others⟩
      have offset := offsets (index + 1) later found
      rwa [runningSum, List.take_succ_cons, total_cons, ← Nat.add_assoc] at offset
  refine from_bit group.fields 0 (fun index field found => ?_) wide
  rw [Nat.zero_add]
  exact valid.consecutive index field found

end PackedGroup

/-! ### Words -/

namespace PackedField

/-- No bit of a mask is cut off. -/
theorem toNat_mask (field : PackedField) : field.mask.toNat = 2 ^ min field.bits 32 - 1 := by
  have bound : 2 ^ min field.bits 32 ≤ 2 ^ 32 := Nat.pow_le_pow_right Nat.two_pos (by omega)
  rw [mask, BitVec.toNat_ofNat, Nat.shiftLeft_eq, Nat.one_mul]
  exact Nat.mod_eq_of_lt (by omega)

/-- A mask cuts a value to the bits of the field. A field that is wider than a word cuts nothing. -/
theorem toNat_and_mask (field : PackedField) (value : Word) :
    (value &&& field.mask).toNat = value.toNat % 2 ^ field.bits := by
  have small := value.isLt
  rw [BitVec.toNat_and, toNat_mask, Nat.and_two_pow_sub_one_eq_mod]
  by_cases fits : field.bits ≤ 32
  · rw [Nat.min_eq_left fits]
  · have wider : 2 ^ 32 ≤ 2 ^ field.bits := Nat.pow_le_pow_right Nat.two_pos (by omega)
    rw [Nat.min_eq_right (by omega), Nat.mod_eq_of_lt small, Nat.mod_eq_of_lt (by omega)]

/-- A value above the bits that are taken adds to the word. -/
theorem toNat_or_shiftLeft (field : PackedField) {word : Word} (value : Word) {start : Nat}
    (low : word.toNat < 2 ^ start) (room : start + field.bits ≤ 32) :
    (word ||| ((value &&& field.mask) <<< start)).toNat =
      word.toNat + 2 ^ start * (value.toNat % 2 ^ field.bits) := by
  have inside : (value.toNat % 2 ^ field.bits) <<< start < 2 ^ 32 := by
    have sum := add_two_pow_mul_lt low (Nat.mod_lt value.toNat (Nat.two_pow_pos field.bits))
    have small := Nat.pow_le_pow_right Nat.two_pos room
    rw [Nat.shiftLeft_eq, Nat.mul_comm]
    omega
  rw [BitVec.toNat_or, BitVec.toNat_shiftLeft, toNat_and_mask, Nat.mod_eq_of_lt inside,
    Nat.shiftLeft_eq, Nat.mul_comm _ (2 ^ start), Nat.or_comm, ← Nat.two_pow_add_eq_or_of_lt low,
    Nat.add_comm]

private theorem toNat_shiftRight_and (field : PackedField) (word : Word) (start : Nat) :
    ((word >>> start) &&& field.mask).toNat = word.toNat / 2 ^ start % 2 ^ field.bits := by
  rw [toNat_and_mask, BitVec.toNat_ushiftRight, Nat.shiftRight_eq_div_pow]

end PackedField

namespace PackedGroup

/-- One value is cut and shifted into the word. The warning about a value that is cut changes
nothing. -/
theorem value_packSlots_cons (word : Word) (slot : Slot) (rest : List Slot) (values : List Word) :
    (packSlots word (slot :: rest) values).run.value =
      if slot.offset ≥ 32 then .error .shiftLeft
      else (packSlots (word ||| ((values.headD 0 &&& slot.field.mask) <<< slot.offset)) rest
        values.tail).run.value := by
  have shifted (next : Measured Word) :
      (if slot.offset ≥ 32 then do throw Overflow.shiftLeft; next else next :
        Measured Word).run.value =
        if slot.offset ≥ 32 then .error .shiftLeft else next.run.value := by
    rw [Logged.value_run_ite]
    rfl
  rw [packSlots]
  dsimp only
  split
  · exact shifted _
  · exact shifted _

/-- Behind the bits that are taken, packing adds the number with the given digits. -/
theorem value_packSlots {slots : List Slot} {start : Nat} (consecutive : Consecutive start slots)
    (room : start + total Slot.bits slots ≤ 32) {word : Word} (low : word.toNat < 2 ^ start)
    (values : List Word) :
    (packSlots word slots values).run.value =
      .ok (BitVec.ofNat 32
        (word.toNat + 2 ^ start * joined slots (values.map BitVec.toNat))) := by
  induction slots generalizing start word values with
  | nil => simp [packSlots, joined]
  | cons slot rest ih =>
    obtain ⟨rfl, wide, follows⟩ := consecutive
    rw [total_cons] at room
    have placed := slot.field.toNat_or_shiftLeft (values.headD 0) low
      (show slot.offset + slot.bits ≤ 32 by omega)
    have above := add_two_pow_mul_lt low
      (Nat.mod_lt (values.headD 0).toNat (Nat.two_pow_pos slot.field.bits))
    rw [← placed] at above
    have head : (values.map BitVec.toNat).headD 0 = (values.headD 0).toNat := by
      cases values <;> rfl
    rw [value_packSlots_cons, if_neg (by omega), ih follows (by omega) above, placed, joined, head,
      ← List.map_tail, Nat.mul_add, ← Nat.mul_assoc, ← Nat.pow_add, Nat.add_assoc]
    rfl

/-- The warning about the number of values changes nothing. -/
theorem value_pack_eq (group : PackedGroup) (values : List Word) :
    (group.pack values).run.value = (packSlots 0 group.slots values).run.value := by
  rw [pack]
  split <;> rfl

theorem value_pack {group : PackedGroup} (consecutive : Consecutive 0 group.slots)
    (room : group.usedBits ≤ groupBits) (values : List Word) :
    (group.pack values).run.value =
      .ok (BitVec.ofNat 32 (joined group.slots (values.map BitVec.toNat))) := by
  have fits : 0 + total Slot.bits group.slots ≤ 32 := by
    rw [total_slots, Nat.zero_add]
    exact room
  have packed := value_packSlots consecutive fits (show (0 : Word).toNat < 2 ^ 0 by decide) values
  rw [value_pack_eq, packed]
  simp

/-- Unpacking reads the digits of the word from its first slot on. -/
theorem unpack_eq {group : PackedGroup} (consecutive : Consecutive 0 group.slots)
    (room : group.usedBits ≤ groupBits) (word : Word) :
    group.unpack word = .ok ((digits group.slots word.toNat).map (BitVec.ofNat 32)) := by
  have reads {slots : List Slot} {start : Nat} (consecutive : Consecutive start slots)
      (room : start + total Slot.bits slots ≤ 32) :
      (slots.mapM fun slot =>
        if slot.offset ≥ 32 then Except.error Overflow.shiftRight
        else .ok ((word >>> slot.offset) &&& slot.field.mask)) =
        .ok ((digits slots (word.toNat / 2 ^ start)).map (BitVec.ofNat 32)) := by
    induction slots generalizing start with
    | nil => rfl
    | cons slot rest ih =>
      obtain ⟨rfl, wide, follows⟩ := consecutive
      rw [total_cons] at room
      have here : (word >>> slot.offset) &&& slot.field.mask =
          BitVec.ofNat 32 (word.toNat / 2 ^ slot.offset % 2 ^ slot.bits) := by
        rw [Slot.bits, ← PackedField.toNat_shiftRight_and, BitVec.ofNat_toNat, BitVec.setWidth_eq]
      rw [List.mapM_cons, if_neg (by omega), ih follows (by omega), here, digits, Nat.pow_add,
        ← Nat.div_div_eq_div_mul]
      rfl
  have whole := reads consecutive (by rw [total_slots, Nat.zero_add]; exact room)
  rwa [Nat.pow_zero, Nat.div_one] at whole

end PackedGroup

end ShaderPipeline.Vertex
