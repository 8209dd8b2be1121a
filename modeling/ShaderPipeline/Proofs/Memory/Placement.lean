import ShaderPipeline.Memory.Placement
import ShaderPipeline.Proofs.Schema.Declared

/-! What a placement comes to, apart from its warnings, member by member. The rounding of offsets
never leaves 32 bits. -/

namespace ShaderPipeline

/-- The answer of a measurement, apart from its warnings. -/
def Measured.result (measured : Measured α) : Except Overflow α := measured.run.value

@[simp] theorem Measured.result_pure (value : α) : (pure value : Measured α).result = .ok value :=
  rfl

theorem Measured.result_bind (first : Measured α) (next : α → Measured β) :
    (first >>= next).result =
      match first.result with
      | .ok value => (next value).result
      | .error overflow => .error overflow := by
  rw [result, Logged.value_run_bind, result]
  cases first.run.value <;> rfl

theorem Measured.result_map (f : α → β) (measured : Measured α) :
    (f <$> measured).result = measured.result.map f := by
  rw [map_eq_pure_bind, result_bind]
  cases measured.result <;> rfl

namespace Memory

open Schema

variable {rule : Rule} {sizes : Nesting} {offset : Nat}

/-- One member after another: an element without a size is left out, as one that does not fit;
one that fits needs at least the bytes of its values. -/
theorem result_placeFrom_cons (outer : String) (property : Property) (rest : List Property) :
    (placeFrom outer rule sizes offset (property :: rest)).result =
      match (elementSize rule sizes property.type).result with
      | .error overflow => .error overflow
      | .ok none => (placeFrom outer rule sizes offset rest).result
      | .ok (some element) =>
        let size := element.padded * property.length
        if fits offset size then
          if element.padded < element.tight then .error .subtract
          else (placeFrom outer rule sizes (offset + size) rest).result.map fun others =>
            (⟨property.name, offset, element.padded, property.length, size,
              element.padded - element.tight⟩ :: others.1, others.2)
        else (placeFrom outer rule sizes offset rest).result := by
  rw [placeFrom, Measured.result_bind]
  cases (elementSize rule sizes property.type).result with
  | error overflow => rfl
  | ok element? =>
    cases element? with
    | none => rfl
    | some element =>
      dsimp only
      by_cases room : fits offset (element.padded * property.length) = true
      · by_cases less : element.padded < element.tight
        · simp only [room, less, ↓reduceIte]
          rfl
        · simp only [room, less, ↓reduceIte]
          exact Measured.result_map _ _
      · simp only [room, Bool.false_eq_true, ↓reduceIte]
        rfl

/-- Where the members after a prefix go on. -/
theorem result_placeFrom_append (outer : String) (before after : List Property) :
    (placeFrom outer rule sizes offset (before ++ after)).result =
      match (placeFrom outer rule sizes offset before).result with
      | .error overflow => .error overflow
      | .ok (members, middle) =>
        (placeFrom outer rule sizes middle after).result.map fun others =>
          (members ++ others.1, others.2) := by
  induction before generalizing offset with
  | nil =>
    rw [List.nil_append, placeFrom, Measured.result_pure]
    dsimp only
    cases (placeFrom outer rule sizes offset after).result <;> rfl
  | cons property rest ih =>
    rw [List.cons_append, result_placeFrom_cons, result_placeFrom_cons]
    cases (elementSize rule sizes property.type).result with
    | error overflow => rfl
    | ok element? =>
      cases element? with
      | none => exact ih
      | some element =>
        dsimp only
        split
        · split
          · rfl
          · rw [ih]
            cases (placeFrom outer rule sizes _ rest).result with
            | error overflow => rfl
            | ok middle =>
              simp only [Except.map]
              cases (placeFrom outer rule sizes middle.2 after).result <;> rfl
        · exact ih

/-- The name of what is placed tells only in warnings. -/
theorem result_placeFrom_outer (outer other : String) (properties : List Property) :
    (placeFrom outer rule sizes offset properties).result =
      (placeFrom other rule sizes offset properties).result := by
  induction properties generalizing offset with
  | nil => rfl
  | cons property rest ih => simp only [result_placeFrom_cons, ih]

/-- Placement reads the sizes of its members' types and of no others. -/
theorem placeFrom_congr {others : Nesting} (outer : String) {properties : List Property}
    (same : ∀ property ∈ properties,
      elementSize rule sizes property.type = elementSize rule others property.type) :
    placeFrom outer rule sizes offset properties =
      placeFrom outer rule others offset properties := by
  induction properties generalizing offset with
  | nil => rfl
  | cons property rest ih =>
    have inner (offset : Nat) := @ih offset fun other member =>
      same other (List.mem_cons_of_mem property member)
    rw [placeFrom, placeFrom, same property List.mem_cons_self]
    simp only [inner]

theorem place_congr {others : Nesting} (name : String) {properties : List Property}
    (same : ∀ property ∈ properties,
      elementSize rule sizes property.type = elementSize rule others property.type) :
    place name properties rule sizes = place name properties rule others := by
  rw [place, place, placeFrom_congr name same]

/-- The offset behind placed members can be rounded up. -/
theorem roundUp_le_of_placeFrom {outer : String} {properties : List Property}
    {members : List Placement} {finish : Nat} (start : Rule.roundUp offset ≤ wordMax)
    (placed : (placeFrom outer rule sizes offset properties).result = .ok (members, finish)) :
    Rule.roundUp finish ≤ wordMax := by
  induction properties generalizing offset members with
  | nil =>
    cases placed
    exact start
  | cons property rest ih =>
    rw [result_placeFrom_cons] at placed
    split at placed
    next => cases placed
    next => exact ih start placed
    next element _ =>
      dsimp only at placed
      split at placed
      next room =>
        split at placed
        next => cases placed
        next =>
          cases others : (placeFrom outer rule sizes _ rest).result with
          | error overflow => rw [others] at placed; cases placed
          | ok more =>
            rw [others] at placed
            cases placed
            refine ih ?_ others
            rw [fits, Bool.and_eq_true] at room
            exact of_decide_eq_true room.2
      next => exact ih start placed

/-- Size of a struct whose members take `members` bytes, where it can be rounded. -/
def Rule.rounded (rule : Rule) (members : Nat) : Nat :=
  match rule with
  | .std140 => Rule.roundUp members
  | .std430 | .packed => members

/-- The rounding of a whole size never fails. -/
theorem structSize_eq (rule : Rule) {finish : Nat} (bounded : Rule.roundUp finish ≤ wordMax) :
    rule.structSize finish = .ok (rule.rounded finish) := by
  cases rule with
  | std140 => exact if_pos bounded
  | std430 | packed => rfl

theorem result_place_of_ok {name : String} {properties : List Property}
    {members : List Placement} {finish : Nat}
    (placed : (placeFrom name rule sizes 0 properties).result = .ok (members, finish)) :
    (place name properties rule sizes).result =
      .ok ⟨name, rule, members, rule.rounded finish⟩ := by
  have zero : Rule.roundUp 0 ≤ wordMax := by decide
  rw [place, Measured.result_bind, placed]
  dsimp only
  rw [structSize_eq rule (roundUp_le_of_placeFrom zero placed)]
  rfl

/-- A whole placement fails only as the placement of its members does. -/
theorem result_place (name : String) (properties : List Property) :
    (∃ overflow, (placeFrom name rule sizes 0 properties).result = .error overflow ∧
      (place name properties rule sizes).result = .error overflow) ∨
    (∃ members finish placements,
      (placeFrom name rule sizes 0 properties).result = .ok (members, finish) ∧
      (place name properties rule sizes).result = .ok placements) := by
  cases placed : (placeFrom name rule sizes 0 properties).result with
  | error overflow => exact .inl ⟨overflow, rfl, by rw [place, Measured.result_bind, placed]⟩
  | ok ends => exact .inr ⟨ends.1, ends.2, _, rfl, result_place_of_ok placed⟩

/-- Every rule gives the values of the built-in types at least the bytes that they have. -/
theorem size_le_valueSize (rule : Rule) :
    ∀ type ∈ ValueType.all, type.size ≤ rule.valueSize type := by
  cases rule <;> decide

end Memory

end ShaderPipeline
