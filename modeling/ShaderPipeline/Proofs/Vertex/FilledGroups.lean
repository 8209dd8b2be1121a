import ShaderPipeline.Proofs.Vertex.ShaderTerms

/-! Packed groups that are filled on their own, without the checks of a builder. Every number stays
in the bits of the word, and every component lies in the word unless a field without a width has
been put behind the last bit. -/

namespace ShaderPipeline.Vertex

/-- A field that a group is asked to take. -/
structure Offer where
  name : String
  scalar : Scalar
  count : Nat
  bits : Nat
  deriving DecidableEq, Repr

namespace PackedGroup

/-- The group after an offer. A field that does not fit leaves it as it was. -/
def offered (group : PackedGroup) (offer : Offer) : PackedGroup :=
  match (group.push offer.name offer.scalar offer.count offer.bits).run.value with
  | .ok next => next
  | .error _ => group

/-- The group after offers in order. -/
def filled (group : PackedGroup) (offers : List Offer) : PackedGroup := offers.foldl offered group

/-- A field that has components but no width is offered when no bit is free. -/
def OffersPastEnd (group : PackedGroup) (offers : List Offer) : Prop :=
  ∃ before offer after, offers = before ++ offer :: after ∧ offer.bits = 0 ∧ 0 < offer.count ∧
    (group.filled before).availableBits = 0

/-- Every number that packing and unpacking compute is small: no sum or product of bits is more
than the bits of the word, and no mask is cut. -/
structure Bounded (group : PackedGroup) : Prop where
  used : group.usedBits ≤ groupBits
  fields : ∀ field ∈ group.fields, field.offset + field.totalBits ≤ groupBits
  components : ∀ field ∈ group.fields, ∀ component < field.count,
    field.bits * component ≤ groupBits ∧ field.componentOffset component ≤ groupBits
  masks : ∀ field ∈ group.fields, field.mask.toNat = 2 ^ min field.bits groupBits - 1

/-- A component lies behind the last bit of the word. -/
def Spills (group : PackedGroup) : Prop := ∃ slot ∈ group.slots, 32 ≤ slot.offset

private theorem offered_cases (group : PackedGroup) (offer : Offer) :
    (offer.bits * offer.count ≤ group.availableBits ∧
      group.offered offer = group.append offer.name offer.scalar offer.count offer.bits) ∨
    (group.availableBits < offer.bits * offer.count ∧ group.offered offer = group) := by
  rw [offered, value_push]
  by_cases fits : offer.bits * offer.count ≤ group.availableBits
  · left
    rw [if_pos fits]
    exact ⟨fits, rfl⟩
  · right
    rw [if_neg fits]
    exact ⟨Nat.lt_of_not_le fits, rfl⟩

theorem WellFormed.offered {group : PackedGroup} (valid : group.WellFormed) (offer : Offer) :
    (group.offered offer).WellFormed := by
  rcases group.offered_cases offer with ⟨fits, same⟩ | ⟨_, same⟩
  · rw [same]
    exact valid.append offer.name offer.scalar fits
  · rw [same]
    exact valid

theorem WellFormed.filled {group : PackedGroup} (valid : group.WellFormed) (offers : List Offer) :
    (group.filled offers).WellFormed := by
  induction offers generalizing group with
  | nil => exact valid
  | cons offer rest ih => exact ih (valid.offered offer)

/-! ### Bounds -/

private theorem mem_slots {group : PackedGroup} {slot : Slot} :
    slot ∈ group.slots ↔ ∃ field ∈ group.fields, ∃ component < field.count,
      slot = ⟨field, field.componentOffset component⟩ := by
  simp only [slots, PackedField.slots, List.mem_flatMap, List.mem_map, List.mem_range, eq_comm]

section Bounds

variable {group : PackedGroup} (valid : group.WellFormed)
include valid

theorem WellFormed.finish_le {field : PackedField} (member : field ∈ group.fields) :
    field.offset + field.totalBits ≤ groupBits :=
  Nat.le_trans (valid.within field member) valid.bounded

/-- A component with a bit ends in the word, and one without a bit lies where its field starts. -/
theorem WellFormed.componentOffset_le {field : PackedField} (member : field ∈ group.fields)
    {component : Nat} (inside : component < field.count) :
    field.componentOffset component + field.bits ≤ groupBits := by
  have ends := valid.finish_le member
  have last : field.bits * (component + 1) ≤ field.bits * field.count :=
    Nat.mul_le_mul_left field.bits inside
  rw [Nat.mul_succ] at last
  rw [PackedField.totalBits] at ends
  rw [PackedField.componentOffset]
  omega

theorem WellFormed.bounds : group.Bounded where
  used := valid.bounded
  fields _ member := valid.finish_le member
  components field member component inside := by
    have ends := valid.componentOffset_le member inside
    rw [PackedField.componentOffset] at ends ⊢
    omega
  masks field _ := field.toNat_mask

/-- Only components without a bit lie behind the last bit, where their field starts. -/
theorem WellFormed.spills_iff :
    group.Spills ↔
      ∃ field ∈ group.fields, field.bits = 0 ∧ 0 < field.count ∧ field.offset = groupBits := by
  constructor
  · rintro ⟨slot, member, past⟩
    obtain ⟨field, present, component, inside, rfl⟩ := mem_slots.mp member
    have ends := valid.componentOffset_le present inside
    have past : groupBits ≤ field.componentOffset component := past
    have zero : field.bits = 0 := by omega
    refine ⟨field, present, zero, Nat.zero_lt_of_lt inside, ?_⟩
    rw [PackedField.componentOffset, zero, Nat.zero_mul, Nat.add_zero] at ends past
    exact Nat.le_antisymm ends past
  · rintro ⟨field, present, zero, several, past⟩
    refine ⟨_, mem_slots.mpr ⟨field, present, 0, several, rfl⟩, ?_⟩
    exact Nat.le_of_eq past.symm

/-- An offer puts a component behind the last bit if it has components but no width, and the word
is full. -/
theorem WellFormed.spills_offered_iff (offer : Offer) :
    (group.offered offer).Spills ↔
      group.Spills ∨ (offer.bits = 0 ∧ 0 < offer.count ∧ group.availableBits = 0) := by
  have bounded := valid.bounded
  have full : group.availableBits = 0 ↔ group.usedBits = groupBits := by
    rw [availableBits]
    omega
  rw [(valid.offered offer).spills_iff, valid.spills_iff, full]
  rcases group.offered_cases offer with ⟨_, same⟩ | ⟨large, same⟩
  · rw [same, fields_append]
    simp only [List.mem_append, List.mem_singleton, or_and_right, exists_or, exists_eq_left]
  · have wide : offer.bits ≠ 0 := by
      rintro zero
      rw [zero, Nat.zero_mul] at large
      exact Nat.not_lt_zero _ large
    simp only [same, wide, false_and, or_false]

end Bounds

private theorem offersPastEnd_cons {group : PackedGroup} {offer : Offer} {rest : List Offer} :
    group.OffersPastEnd (offer :: rest) ↔
      (offer.bits = 0 ∧ 0 < offer.count ∧ group.availableBits = 0) ∨
        (group.offered offer).OffersPastEnd rest := by
  constructor
  · rintro ⟨before, past, after, split, zero, several, full⟩
    cases before with
    | nil =>
      cases split
      exact .inl ⟨zero, several, full⟩
    | cons first before =>
      cases split
      exact .inr ⟨before, past, after, rfl, zero, several, full⟩
  · rintro (⟨zero, several, full⟩ | ⟨before, past, after, rfl, zero, several, full⟩)
    · exact ⟨[], offer, rest, rfl, zero, several, full⟩
    · exact ⟨offer :: before, past, after, rfl, zero, several, full⟩

theorem WellFormed.spills_filled_iff {group : PackedGroup} (valid : group.WellFormed)
    (offers : List Offer) :
    (group.filled offers).Spills ↔ group.Spills ∨ group.OffersPastEnd offers := by
  induction offers generalizing group with
  | nil => exact (or_iff_left (by simp [OffersPastEnd])).symm
  | cons offer rest ih =>
    have later := ih (valid.offered offer)
    rw [valid.spills_offered_iff, or_assoc, ← offersPastEnd_cons] at later
    exact later

/-! ### Shifts -/

private theorem value_packSlots_spilling {slots : List Slot}
    (past : ∃ slot ∈ slots, 32 ≤ slot.offset) (word : Word) (values : List Word) :
    (packSlots word slots values).run.value = .error .shiftLeft := by
  induction slots generalizing word values with
  | nil => simp at past
  | cons slot rest ih =>
    rw [value_packSlots_cons]
    by_cases here : slot.offset ≥ 32
    · rw [if_pos here]
    · rw [if_neg here]
      obtain ⟨other, member, large⟩ := past
      rcases List.mem_cons.mp member with rfl | later
      · exact absurd large here
      · exact ih ⟨other, later, large⟩ _ _

private theorem exists_value_packSlots {slots : List Slot}
    (inside : ∀ slot ∈ slots, slot.offset < 32) (word : Word) (values : List Word) :
    ∃ packed, (packSlots word slots values).run.value = .ok packed := by
  induction slots generalizing word values with
  | nil => exact ⟨word, rfl⟩
  | cons slot rest ih =>
    obtain ⟨here, others⟩ := List.forall_mem_cons.mp inside
    rw [value_packSlots_cons, if_neg (Nat.not_le.mpr here)]
    exact ih others _ _

private theorem unpack_spilling {group : PackedGroup} (spills : group.Spills) (word : Word) :
    group.unpack word = .error .shiftRight := by
  have reads {slots : List Slot} (past : ∃ slot ∈ slots, 32 ≤ slot.offset) :
      (slots.mapM fun slot =>
        if slot.offset ≥ 32 then Except.error Overflow.shiftRight
        else .ok ((word >>> slot.offset) &&& slot.field.mask)) = .error .shiftRight := by
    induction slots with
    | nil => simp at past
    | cons slot rest ih =>
      rw [List.mapM_cons]
      by_cases here : slot.offset ≥ 32
      · rw [if_pos here]
        rfl
      · obtain ⟨other, member, large⟩ := past
        rcases List.mem_cons.mp member with rfl | later
        · exact absurd large here
        · rw [if_neg here, ih ⟨other, later, large⟩]
          rfl
  exact reads spills

/-- Packing and unpacking are defined of a whole group or of none of its values and words. -/
theorem shifts_cases (group : PackedGroup) :
    (group.Spills ∧ (∀ values, (group.pack values).run.value = .error .shiftLeft) ∧
      ∀ word, group.unpack word = .error .shiftRight) ∨
    (¬ group.Spills ∧ (∀ values, ∃ word, (group.pack values).run.value = .ok word) ∧
      ∀ word, ∃ values, group.unpack word = .ok values) := by
  by_cases spills : group.Spills
  · left
    refine ⟨spills, fun values => ?_, unpack_spilling spills⟩
    rw [value_pack_eq]
    exact value_packSlots_spilling spills 0 values
  · right
    have inside : ∀ slot ∈ group.slots, slot.offset < 32 := fun slot member =>
      Nat.lt_of_not_le fun past => spills ⟨slot, member, past⟩
    refine ⟨spills, fun values => ?_, fun word => ⟨_, unpack_eq_components inside word⟩⟩
    rw [value_pack_eq]
    exact exists_value_packSlots inside 0 values

/-- Whatever a group that starts empty is offered, its numbers stay small. It packs every list of
values and unpacks every word exactly where no field with components but without a width has been
offered to the full word; after such an offer it packs nothing and unpacks nothing. -/
theorem filled_packs_iff (name : String) (offers : List Offer) :
    let group := (empty name).filled offers
    group.Bounded ∧
      ((∀ values, ∃ word, (group.pack values).run.value = .ok word) ↔
        ¬ (empty name).OffersPastEnd offers) ∧
      ((∀ word, ∃ values, group.unpack word = .ok values) ↔
        ¬ (empty name).OffersPastEnd offers) ∧
      ((empty name).OffersPastEnd offers ↔
        (∀ values, (group.pack values).run.value = .error .shiftLeft) ∧
          ∀ word, group.unpack word = .error .shiftRight) := by
  intro group
  have valid : group.WellFormed := (wellFormed_empty name).filled offers
  have past : group.Spills ↔ (empty name).OffersPastEnd offers := by
    have none : ¬ (empty name).Spills := by simp [Spills, slots, empty]
    rw [(wellFormed_empty name).spills_filled_iff, or_iff_right none]
  refine ⟨valid.bounds, ?_⟩
  rw [← past]
  rcases group.shifts_cases with ⟨spills, packs, unpacks⟩ | ⟨inside, packs, unpacks⟩
  · simp [spills, packs, unpacks]
  · refine ⟨iff_of_true packs inside, iff_of_true unpacks inside,
      iff_of_false inside fun failing => ?_⟩
    obtain ⟨word, packed⟩ := packs []
    rw [failing.1] at packed
    cases packed

/-- A field as wide as the word, and one without a width behind it. -/
def crampedOffers : List Offer := [⟨"all", .int, 1, 32⟩, ⟨"none", .byte, 1, 0⟩]

theorem zero_width_behind_full_word :
    let group := (empty "g").filled crampedOffers
    (group.pack [7]).run.value = .error .shiftLeft ∧ group.unpack 7 = .error .shiftRight := by
  exact ⟨rfl, rfl⟩

end PackedGroup

end ShaderPipeline.Vertex
