import ShaderPipeline.Proofs.Memory.Placement

/-! Placements that leave nothing out. Members lie side by side from an offset on, and where each
of them fits, they fit as well from a lower offset and with smaller elements. -/

namespace ShaderPipeline.Memory

open Schema

/-- How many bytes an element of each type takes. -/
abbrev Elements := PropertyType → ElementSize

/-- Bytes that all elements of a member take. -/
def Elements.span (elements : Elements) (property : Property) : Nat :=
  (elements property.type).padded * property.length

/-- Members side by side, the first at `offset`. -/
def sideBySide (elements : Elements) : (offset : Nat) → List Property → List Placement
  | _, [] => []
  | offset, property :: rest =>
    ⟨property.name, offset, (elements property.type).padded, property.length,
      elements.span property,
      (elements property.type).padded - (elements property.type).tight⟩ ::
      sideBySide elements (offset + elements.span property) rest

/-- The offset behind members that lie side by side. -/
def behind (elements : Elements) : (offset : Nat) → List Property → Nat
  | offset, [] => offset
  | offset, property :: rest => behind elements (offset + elements.span property) rest

/-- Every member fits behind those before it. -/
def AllFit (elements : Elements) : (offset : Nat) → List Property → Prop
  | _, [] => True
  | offset, property :: rest =>
    fits offset (elements.span property) = true ∧
      AllFit elements (offset + elements.span property) rest

/-- The types of the members have elements, and each of these has room for its bytes. -/
def Sized (rule : Rule) (sizes : Nesting) (elements : Elements) (properties : List Property) :
    Prop :=
  ∀ property ∈ properties,
    (elementSize rule sizes property.type).result = .ok (some (elements property.type)) ∧
      (elements property.type).tight ≤ (elements property.type).padded

theorem map_name_sideBySide (elements : Elements) (offset : Nat) (properties : List Property) :
    (sideBySide elements offset properties).map Placement.name =
      properties.map Property.name := by
  induction properties generalizing offset with
  | nil => rfl
  | cons property rest ih => rw [sideBySide, List.map_cons, List.map_cons, ih]

/-- Elements that are no larger than their bytes have no padding. -/
theorem padding_sideBySide {elements : Elements} (offset : Nat) {properties : List Property}
    (tight : ∀ property ∈ properties,
      (elements property.type).padded = (elements property.type).tight) :
    ∀ member ∈ sideBySide elements offset properties, member.padding = 0 := by
  induction properties generalizing offset with
  | nil => exact fun _ absent => (nomatch absent)
  | cons property rest ih =>
    intro member present
    rw [sideBySide] at present
    rcases List.mem_cons.mp present with rfl | later
    · show (elements property.type).padded - (elements property.type).tight = 0
      rw [tight property List.mem_cons_self, Nat.sub_self]
    · exact ih _ (fun other there => tight other (List.mem_cons_of_mem property there)) member later

section Placing

variable {rule : Rule} {sizes : Nesting} {elements : Elements} {offset : Nat}
  {properties : List Property}

theorem Sized.of_cons {property : Property} {rest : List Property}
    (sized : Sized rule sizes elements (property :: rest)) : Sized rule sizes elements rest :=
  fun other member => sized other (List.mem_cons_of_mem property member)

/-- A member is placed where it fits, and left out where it does not. -/
theorem Sized.result_cons {property : Property} {rest : List Property}
    (sized : Sized rule sizes elements (property :: rest)) (outer : String) :
    (placeFrom outer rule sizes offset (property :: rest)).result =
      if fits offset (elements.span property) then
        (placeFrom outer rule sizes (offset + elements.span property) rest).result.map fun others =>
          (⟨property.name, offset, (elements property.type).padded, property.length,
            elements.span property,
            (elements property.type).padded - (elements property.type).tight⟩ :: others.1,
            others.2)
      else (placeFrom outer rule sizes offset rest).result := by
  obtain ⟨element, enough⟩ := sized property List.mem_cons_self
  rw [result_placeFrom_cons, element]
  dsimp only
  rw [if_neg (Nat.not_lt.mpr enough)]
  rfl

/-- Elements with room for their bytes never fail. At most every member is placed. -/
theorem Sized.placed (sized : Sized rule sizes elements properties) (outer : String) :
    ∃ members finish,
      (placeFrom outer rule sizes offset properties).result = .ok (members, finish) ∧
        members.length ≤ properties.length := by
  induction properties generalizing offset with
  | nil => exact ⟨[], offset, rfl, Nat.le_refl _⟩
  | cons property rest ih =>
    rw [sized.result_cons]
    by_cases room : fits offset (elements.span property) = true
    · obtain ⟨members, finish, placed, bound⟩ :=
        @ih (offset + elements.span property) sized.of_cons
      rw [if_pos room, placed]
      exact ⟨_, finish, rfl, Nat.succ_le_succ bound⟩
    · obtain ⟨members, finish, placed, bound⟩ := @ih offset sized.of_cons
      rw [if_neg room, placed]
      exact ⟨members, finish, rfl, Nat.le_succ_of_le bound⟩

/-- Members that all fit are placed side by side. -/
theorem Sized.result_of_allFit (sized : Sized rule sizes elements properties) (outer : String)
    (room : AllFit elements offset properties) :
    (placeFrom outer rule sizes offset properties).result =
      .ok (sideBySide elements offset properties, behind elements offset properties) := by
  induction properties generalizing offset with
  | nil => rfl
  | cons property rest ih =>
    obtain ⟨here, later⟩ := room
    rw [sized.result_cons, if_pos here, ih sized.of_cons later]
    rfl

/-- If as many are placed as there are, each of them fits. -/
theorem Sized.allFit_of_length (sized : Sized rule sizes elements properties) {outer : String}
    {members : List Placement} {finish : Nat}
    (placed : (placeFrom outer rule sizes offset properties).result = .ok (members, finish))
    (all : members.length = properties.length) : AllFit elements offset properties := by
  induction properties generalizing offset members with
  | nil => trivial
  | cons property rest ih =>
    rw [sized.result_cons] at placed
    by_cases room : fits offset (elements.span property) = true
    · obtain ⟨others, other, answered, _⟩ :=
        @Sized.placed rule sizes elements (offset + elements.span property) rest sized.of_cons outer
      rw [if_pos room, answered] at placed
      cases placed
      exact ⟨room, ih sized.of_cons answered (Nat.succ.inj all)⟩
    · obtain ⟨others, other, answered, bound⟩ :=
        @Sized.placed rule sizes elements offset rest sized.of_cons outer
      rw [if_neg room, answered] at placed
      cases placed
      rw [all, List.length_cons] at bound
      exact absurd bound (Nat.not_succ_le_self _)

end Placing

/-! ### Smaller elements -/

theorem Rule.roundUp_mono {size larger : Nat} (bound : size ≤ larger) :
    Rule.roundUp size ≤ Rule.roundUp larger :=
  Nat.mul_le_mul_right 16 (Nat.div_le_div_right (Nat.add_le_add_right bound 15))

theorem Rule.le_roundUp (size : Nat) : size ≤ Rule.roundUp size := by
  rw [roundUp]
  omega

private theorem fits_mono {offset size further larger : Nat} (start : offset ≤ further)
    (bound : size ≤ larger) (room : fits further larger = true) : fits offset size = true := by
  simp only [fits, Bool.and_eq_true, decide_eq_true_eq] at *
  have rounded := Rule.roundUp_mono (Nat.add_le_add start bound)
  exact ⟨Nat.le_trans bound room.1, Nat.le_trans rounded room.2⟩

section Comparing

variable {small large : Elements} {properties : List Property}

/-- The elements of every member take as many bytes or more. -/
def Grows (small large : Elements) (properties : List Property) : Prop :=
  ∀ property ∈ properties, (small property.type).padded ≤ (large property.type).padded

theorem Grows.of_cons {property : Property} {rest : List Property}
    (grows : Grows small large (property :: rest)) : Grows small large rest :=
  fun other member => grows other (List.mem_cons_of_mem property member)

theorem Grows.span {property : Property} {rest : List Property}
    (grows : Grows small large (property :: rest)) : small.span property ≤ large.span property :=
  Nat.mul_le_mul_right property.length (grows property List.mem_cons_self)

theorem Grows.allFit (grows : Grows small large properties) {offset further : Nat}
    (start : offset ≤ further) (room : AllFit large further properties) :
    AllFit small offset properties := by
  induction properties generalizing offset further with
  | nil => trivial
  | cons property rest ih =>
    obtain ⟨here, later⟩ := room
    have next := Nat.add_le_add start grows.span
    exact ⟨fits_mono start grows.span here, ih grows.of_cons next later⟩

theorem Grows.behind (grows : Grows small large properties) {offset further : Nat}
    (start : offset ≤ further) :
    behind small offset properties ≤ behind large further properties := by
  induction properties generalizing offset further with
  | nil => exact start
  | cons property rest ih => exact ih grows.of_cons (Nat.add_le_add start grows.span)

/-- No member lies further on with smaller elements. -/
theorem Grows.offset (grows : Grows small large properties) {offset further : Nat}
    (start : offset ≤ further) {index : Nat} {first second : Placement}
    (here : (sideBySide small offset properties)[index]? = some first)
    (there : (sideBySide large further properties)[index]? = some second) :
    first.offset ≤ second.offset := by
  induction properties generalizing offset further index with
  | nil => cases here
  | cons property rest ih =>
    rw [sideBySide] at here there
    cases index with
    | zero =>
      cases here
      cases there
      exact start
    | succ index => exact ih grows.of_cons (Nat.add_le_add start grows.span) here there

end Comparing

end ShaderPipeline.Memory
