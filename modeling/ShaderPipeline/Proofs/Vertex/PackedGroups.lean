import ShaderPipeline.Vertex.Packed

/-! The bit ranges of packed groups: fields lie side by side from bit zero and inside the word.
The invariant is stated of a group on its own, and appending a field keeps it. -/

namespace ShaderPipeline.Vertex

@[simp] theorem total_nil (measure : α → Nat) : total measure [] = 0 := rfl

@[simp] theorem total_cons (measure : α → Nat) (item : α) (items : List α) :
    total measure (item :: items) = measure item + total measure items := rfl

@[simp] theorem total_append (measure : α → Nat) (first second : List α) :
    total measure (first ++ second) = total measure first + total measure second := by
  induction first with
  | nil => simp
  | cons item rest ih => simp [ih, Nat.add_assoc]

/-- The sum of a measure over the items before position `index`. -/
def runningSum (measure : α → Nat) (items : List α) (index : Nat) : Nat :=
  total measure (items.take index)

theorem runningSum_append (measure : α → Nat) (items : List α) (last : α) {index : Nat}
    (bound : index ≤ items.length) :
    runningSum measure (items ++ [last]) index = runningSum measure items index := by
  simp [runningSum, List.take_append_of_le_length bound]

@[simp] theorem runningSum_length (measure : α → Nat) (items : List α) :
    runningSum measure items items.length = total measure items := by
  simp [runningSum]

theorem runningSum_succ (measure : α → Nat) (items : List α) {index : Nat} {item : α}
    (found : items[index]? = some item) :
    runningSum measure items (index + 1) = runningSum measure items index + measure item := by
  simp [runningSum, List.take_add_one, found]

theorem runningSum_mono (measure : α → Nat) (items : List α) {first second : Nat}
    (before : first ≤ second) :
    runningSum measure items first ≤ runningSum measure items second := by
  have taken : items.take first = (items.take second).take first := by
    rw [List.take_take, Nat.min_eq_left before]
  have whole := congrArg (total measure) (List.take_append_drop first (items.take second))
  rw [total_append] at whole
  rw [runningSum, runningSum, taken]
  omega

/-- What is below the total lies between two running sums. -/
theorem lt_total_iff {measure : α → Nat} {items : List α} {position : Nat} :
    position < total measure items ↔ ∃ index item, items[index]? = some item ∧
      runningSum measure items index ≤ position ∧
        position < runningSum measure items index + measure item := by
  constructor
  · intro inside
    induction items generalizing position with
    | nil => simp at inside
    | cons first rest ih =>
      by_cases here : position < measure first
      · exact ⟨0, first, rfl, Nat.zero_le _, by simpa [runningSum] using here⟩
      · rw [total_cons] at inside
        have later : position - measure first < total measure rest := by omega
        obtain ⟨index, item, found, lower, upper⟩ := ih later
        refine ⟨index + 1, item, found, ?_⟩
        rw [runningSum, List.take_succ_cons, total_cons, ← runningSum]
        omega
  · rintro ⟨index, item, found, -, upper⟩
    obtain ⟨bound, -⟩ := List.getElem?_eq_some_iff.mp found
    rw [← runningSum_succ measure items found] at upper
    have behind : index + 1 ≤ items.length := bound
    have ends := runningSum_mono measure items behind
    rw [runningSum_length] at ends
    omega

namespace PackedField

/-- The bit after the last one of a field. -/
def finish (field : PackedField) : Nat := field.offset + field.totalBits

end PackedField

namespace PackedGroup

/-- The fields take consecutive bit ranges of the word. -/
structure WellFormed (group : PackedGroup) : Prop where
  consecutive : ∀ index field, group.fields[index]? = some field →
    field.offset = runningSum PackedField.totalBits group.fields index
  disjoint : group.fields.Pairwise fun earlier later => earlier.finish ≤ later.offset
  within : ∀ field ∈ group.fields, field.finish ≤ group.usedBits
  bounded : group.usedBits ≤ groupBits

theorem wellFormed_empty (name : String) : (empty name).WellFormed := by
  constructor <;> simp [empty, usedBits]

/-- The group with one more field at its next free bit. -/
def append (group : PackedGroup) (name : String) (scalar : Scalar) (count bits : Nat) :
    PackedGroup :=
  { group with fields := group.fields ++ [⟨name, scalar, count, bits, group.usedBits⟩] }

@[simp] theorem fields_append (group : PackedGroup) (name : String) (scalar : Scalar)
    (count bits : Nat) :
    (group.append name scalar count bits).fields =
      group.fields ++ [⟨name, scalar, count, bits, group.usedBits⟩] := rfl

private theorem usedBits_append (group : PackedGroup) (name : String) (scalar : Scalar)
    (count bits : Nat) :
    (group.append name scalar count bits).usedBits = group.usedBits + bits * count := by
  simp [usedBits, PackedField.totalBits]

theorem WellFormed.append {group : PackedGroup} (valid : group.WellFormed) (name : String)
    (scalar : Scalar) {count bits : Nat} (fits : bits * count ≤ group.availableBits) :
    (group.append name scalar count bits).WellFormed := by
  have room : group.usedBits + bits * count ≤ groupBits := by
    have bounded := valid.bounded
    simp only [availableBits] at fits
    omega
  constructor
  · intro index field found
    rw [fields_append] at found ⊢
    rw [List.getElem?_append] at found
    split at found
    · next bound =>
      rw [runningSum_append _ _ _ (by omega)]
      exact valid.consecutive index field found
    · next beyond =>
      obtain ⟨inside, rfl⟩ := List.getElem?_eq_some_iff.mp found
      have position : index = group.fields.length := by simp at inside; omega
      subst position
      rw [runningSum_append _ _ _ (Nat.le_refl _), runningSum_length]
      simp [usedBits]
  · rw [fields_append, List.pairwise_append]
    refine ⟨valid.disjoint, List.pairwise_singleton _ _, ?_⟩
    intro earlier member later last
    obtain rfl := List.mem_singleton.mp last
    exact valid.within earlier member
  · intro field member
    rw [usedBits_append]
    rw [fields_append, List.mem_append, List.mem_singleton] at member
    rcases member with old | rfl
    · have inside := valid.within field old
      omega
    · simp [PackedField.finish, PackedField.totalBits]
  · rw [usedBits_append]
    exact room

/-- The bound on counting never hides a field that is too large: the word is far shorter. -/
theorem requestedBits_le_iff (count bits : Nat) {available : Nat} (small : available ≤ groupBits) :
    requestedBits count bits ≤ available ↔ bits * count ≤ available := by
  simp only [requestedBits, wordMax, groupBits] at *
  omega

/-- A field that fits is appended, and any other is a fault that names what is left. -/
theorem value_push (group : PackedGroup) (name : String) (scalar : Scalar) (count bits : Nat) :
    (group.push name scalar count bits).run.value =
      if bits * count ≤ group.availableBits then .ok (group.append name scalar count bits)
      else .error (.packedOverflow group.name name (requestedBits count bits)
        group.availableBits) := by
  have small : group.availableBits ≤ groupBits := Nat.sub_le _ _
  have decision := requestedBits_le_iff count bits small
  by_cases fits : bits * count ≤ group.availableBits
  · have accepted : ¬ requestedBits count bits > group.availableBits := by
      have := decision.mpr fits
      omega
    simp only [push, accepted, fits, ↓reduceIte]
    rfl
  · have rejected : requestedBits count bits > group.availableBits := by
      have := mt decision.mp fits
      omega
    simp only [push, rejected, fits, ↓reduceIte]
    rfl

end PackedGroup

end ShaderPipeline.Vertex
