import ShaderPipeline.Proofs.Logged
import ShaderPipeline.Proofs.Vertex.Layouts

/-! Sequences of builder operations. Whatever they are, the builder stands for a consistent layout
with an open group whose names are still free, so every layout that is built is well formed. -/

namespace ShaderPipeline.Vertex

/-- A call on a builder. -/
inductive Operation where
  | add (name : String) (format : Format)
  | beginPacked (name? : Option String)
  | addPackedField (name : String) (scalar : Scalar) (count bits : Nat)
  | endPacked
  | discardPacked
  deriving DecidableEq, Repr

namespace Builder

/-- The builder after a call. A field that does not fit leaves it as it was. -/
def step (builder : Builder) : Operation → Builder
  | .add name format => (builder.add name format).value
  | .beginPacked name? => (builder.beginPacked name?).value
  | .addPackedField name scalar count bits =>
    match (builder.addPackedField name scalar count bits).run.value with
    | .ok next => next
    | .error _ => builder
  | .endPacked => builder.endPacked.value.2
  | .discardPacked => builder.discardPacked

/-- The builder after calls in order. -/
def steps (builder : Builder) (operations : List Operation) : Builder :=
  operations.foldl step builder

/-- The layout that calls on a new builder declare. -/
def layoutOf (operations : List Operation) : Layout := (steps empty operations).build.value

/-- The layout declared so far. An open group does not count. -/
def layout (builder : Builder) : Layout :=
  ⟨builder.components, builder.attributes, builder.offset⟩

/-- The components that `place` appends. -/
def placed (builder : Builder) (parts : List (String × Storage)) : List Component :=
  parts.mapIdx fun position (name, storage) =>
    ⟨name, builder.components.length + position, builder.attributes.length, storage⟩

section Placed

variable (builder : Builder) (parts : List (String × Storage))

private theorem map_part_placed : (builder.placed parts).map Component.part = parts := by
  apply List.ext_getElem <;> simp [placed, Component.part]

theorem map_name_placed : (builder.placed parts).map Component.name = parts.map Prod.fst := by
  apply List.ext_getElem <;> simp [placed]

private theorem attributeIndex_of_mem_placed {component : Component}
    (member : component ∈ builder.placed parts) :
    component.attributeIndex = builder.attributes.length := by
  obtain ⟨position, _, rfl⟩ := List.mem_mapIdx.mp member
  rfl

private theorem index_of_getElem?_placed {position : Nat} {component : Component}
    (found : (builder.placed parts)[position]? = some component) :
    component.index = builder.components.length + position := by
  rw [placed, List.getElem?_mapIdx] at found
  obtain ⟨part, _, rfl⟩ := Option.map_eq_some_iff.mp found
  rfl

end Placed

theorem layout_place (builder : Builder) (name : String) (format : Format)
    (packed : Option PackedGroup) (parts : List (String × Storage)) :
    (builder.place name format packed parts).layout =
      ⟨builder.components ++ builder.placed parts,
        builder.attributes ++ [⟨name, format, builder.offset, packed⟩],
        builder.offset + format.size⟩ := rfl

private theorem isDeclared_eq_false_iff {builder : Builder} {name : String} :
    builder.isDeclared name = false ↔ name ∉ builder.components.map Component.name := by
  simp [isDeclared]

/-- Nothing is stored past the last attribute, and all that `place` adds is. -/
theorem partsOf_place {builder : Builder} (valid : builder.layout.Consistent) (name : String)
    (format : Format) (packed : Option PackedGroup) (parts : List (String × Storage))
    (index : Nat) :
    (builder.place name format packed parts).layout.partsOf index =
      if index = builder.attributes.length then builder.placed parts
      else builder.layout.partsOf index := by
  rw [layout_place]
  simp only [Layout.partsOf, List.filter_append]
  split
  · next last =>
    subst last
    have old : builder.components.filter
        (fun component => component.attributeIndex = builder.attributes.length) = [] := by
      rw [List.filter_eq_nil_iff]
      intro component member
      have bound : component.attributeIndex < builder.attributes.length :=
        valid.stored component member
      simp only [decide_eq_true_eq]
      omega
    have new : (builder.placed parts).filter
        (fun component => component.attributeIndex = builder.attributes.length) =
          builder.placed parts := by
      rw [List.filter_eq_self]
      intro component member
      simpa using attributeIndex_of_mem_placed builder parts member
    rw [old, new, List.nil_append]
  · next other =>
    have new : (builder.placed parts).filter
        (fun component => component.attributeIndex = index) = [] := by
      rw [List.filter_eq_nil_iff]
      intro component member
      rw [attributeIndex_of_mem_placed builder parts member]
      simpa using Ne.symm other
    rw [new, List.append_nil]
    rfl

/-- An attribute that is placed with its components under free names keeps the layout
consistent. -/
theorem consistent_place {builder : Builder} (valid : builder.layout.Consistent) {name : String}
    {format : Format} {packed : Option PackedGroup} {parts : List (String × Storage)}
    (declares : Attribute.declares ⟨name, format, builder.offset, packed⟩ = parts)
    (inhabited : parts ≠ []) (distinct : (parts.map Prod.fst).Nodup)
    (free : ∀ part ∈ parts, builder.isDeclared part.1 = false)
    (groups : ∀ group, packed = some group → group.WellFormed) :
    (builder.place name format packed parts).layout.Consistent where
  offset index input found := by
    simp only [layout_place] at found ⊢
    rw [List.getElem?_append] at found
    split at found
    · next bound =>
      rw [runningSum_append _ _ _ (Nat.le_of_lt bound)]
      exact valid.offset index input found
    · next beyond =>
      obtain ⟨inside, rfl⟩ := List.getElem?_eq_some_iff.mp found
      have position : index = builder.attributes.length := by
        simp only [List.length_singleton] at inside
        omega
      subst position
      rw [runningSum_append _ _ _ (Nat.le_refl _), runningSum_length]
      simp only [Nat.sub_self, List.getElem_cons_zero]
      exact valid.stride
  stride := by
    have before : builder.offset = total Attribute.size builder.attributes := valid.stride
    simp [layout_place, before, Attribute.size]
  distinct := by
    rw [layout_place, List.map_append, map_name_placed, List.nodup_append]
    refine ⟨valid.distinct, distinct, ?_⟩
    intro first old second new same
    subst same
    obtain ⟨part, member, rfl⟩ := List.mem_map.mp new
    exact isDeclared_eq_false_iff.mp (free part member) old
  index position component found := by
    simp only [layout_place] at found
    rw [List.getElem?_append] at found
    split at found
    · exact valid.index position component found
    · next beyond =>
      rw [index_of_getElem?_placed builder parts found]
      omega
  stored component member := by
    simp only [layout_place, List.mem_append, List.length_append, List.length_singleton] at member ⊢
    rcases member with old | new
    · have bound : component.attributeIndex < builder.attributes.length :=
        valid.stored component old
      omega
    · rw [attributeIndex_of_mem_placed builder parts new]
      omega
  ordered := by
    simp only [layout_place]
    rw [List.pairwise_append]
    refine ⟨valid.ordered, ?_, ?_⟩
    · apply List.pairwise_of_forall_mem_list
      intro first firstNew second secondNew
      exact Nat.le_of_eq ((attributeIndex_of_mem_placed builder parts firstNew).trans
        (attributeIndex_of_mem_placed builder parts secondNew).symm)
    · intro first old second new
      rw [attributeIndex_of_mem_placed builder parts new]
      exact Nat.le_of_lt (valid.stored first old)
  parts index input found := by
    rw [partsOf_place valid]
    simp only [layout_place] at found
    rw [List.getElem?_append] at found
    split at found
    · next bound =>
      rw [if_neg (Nat.ne_of_lt bound)]
      exact valid.parts index input found
    · next beyond =>
      obtain ⟨inside, rfl⟩ := List.getElem?_eq_some_iff.mp found
      have position : index = builder.attributes.length := by
        simp only [List.length_singleton] at inside
        omega
      rw [if_pos position, map_part_placed]
      simpa using declares.symm
  inhabited input member := by
    simp only [layout_place, List.mem_append, List.mem_singleton] at member
    rcases member with old | rfl
    · exact valid.inhabited input old
    · rw [declares]
      exact inhabited
  groups input member := by
    simp only [layout_place, List.mem_append, List.mem_singleton] at member
    rcases member with old | rfl
    · exact valid.groups input old
    · exact groups

/-- What an open group promises to the layout that it is closed into. -/
structure Opens (builder : Builder) (group : PackedGroup) : Prop where
  wellFormed : group.WellFormed
  distinct : (group.fields.map PackedField.name).Nodup
  free : ∀ field ∈ group.fields, builder.isDeclared field.name = false

/-- The invariant of builders. -/
structure WellFormed (builder : Builder) : Prop where
  layout : builder.layout.Consistent
  opens : ∀ group, builder.group? = some group → builder.Opens group

theorem wellFormed_empty : empty.WellFormed := by
  refine ⟨?_, by simp [empty]⟩
  constructor <;> simp [empty, Builder.layout]

/-- A group opens empty, so nothing it holds can be taken. -/
theorem opens_empty (builder : Builder) (name : String) : builder.Opens (.empty name) where
  wellFormed := PackedGroup.wellFormed_empty name
  distinct := by simp [PackedGroup.empty]
  free := by simp [PackedGroup.empty]

private theorem value_dropUnclosed (builder : Builder) :
    builder.dropUnclosed.value = { builder with group? := none } := by
  obtain ⟨components, attributes, offset, group?, groupsStarted⟩ := builder
  cases group? <;> rfl

theorem value_build (builder : Builder) : builder.build.value = builder.layout := by
  simp [build, value_dropUnclosed, layout]

theorem value_beginPacked (builder : Builder) (name? : Option String) :
    (builder.beginPacked name?).value =
      { builder with
        group? := some (.empty (name?.getD s!"packed{builder.groupsStarted}"))
        groupsStarted := builder.groupsStarted + 1 } := by
  simp only [beginPacked, Logged.value_bind, Logged.value_pure, value_dropUnclosed]

/-- A field goes into the open group if it has a width, a free name and room. Any other call
answers with the builder as it was, or with the fault of a field that has no room. -/
theorem value_addPackedField (builder : Builder) (name : String) (scalar : Scalar)
    (count bits : Nat) :
    (builder.addPackedField name scalar count bits).run.value =
      if bits = 0 then .ok builder
      else match builder.group? with
        | none => .ok builder
        | some group =>
          if builder.isDeclared name || (group.field? name).isSome then .ok builder
          else (group.push name scalar count bits).run.value.map fun next =>
            { builder with group? := some next } := by
  rw [addPackedField]
  by_cases zero : bits = 0
  · rw [if_pos zero, if_pos zero]
    rfl
  · rw [if_neg zero, if_neg zero]
    cases builder.group? with
    | none => rfl
    | some group =>
      by_cases taken : (builder.isDeclared name || (group.field? name).isSome) = true
      · simp only [taken, ↓reduceIte]
        rfl
      · simp only [taken, Bool.false_eq_true, ↓reduceIte, ExceptT.run_bind, Logged.value_bind]
        cases (group.push name scalar count bits).run.value <;> rfl

/-- A call for a field changes nothing, or appends the field to the open group. -/
theorem step_addPackedField (builder : Builder) (name : String) (scalar : Scalar)
    (count bits : Nat) :
    builder.step (.addPackedField name scalar count bits) = builder ∨
      ∃ group, builder.group? = some group ∧ builder.isDeclared name = false ∧
        group.field? name = none ∧ bits * count ≤ group.availableBits ∧
        builder.step (.addPackedField name scalar count bits) =
          { builder with group? := some (group.append name scalar count bits) } := by
  simp only [step, value_addPackedField]
  by_cases zero : bits = 0
  · simp [zero]
  · cases opened : builder.group? with
    | none => simp [zero]
    | some group =>
      by_cases taken : (builder.isDeclared name || (group.field? name).isSome) = true
      · simp [zero, taken]
      · by_cases fits : bits * count ≤ group.availableBits
        · right
          refine ⟨group, rfl, by simp_all, by simp_all, fits, ?_⟩
          simp [zero, taken, PackedGroup.value_push, fits, Except.map]
        · simp [zero, taken, PackedGroup.value_push, fits, Except.map]

/-- Closing a group with fields places its word and names its fields as components. -/
theorem value_endPacked {builder : Builder} {group : PackedGroup}
    (opened : builder.group? = some group) (filled : group.fields ≠ []) :
    builder.endPacked.value.2 =
      { builder with group? := none }.place group.name .word (some group)
        (group.fields.map fun field : PackedField => (field.name, .packed field)) := by
  simp [endPacked, opened, filled]

namespace WellFormed

variable {builder : Builder} (valid : builder.WellFormed)
include valid

/-- Without an open group there is only the layout to keep. -/
theorem shut : { builder with group? := none }.WellFormed := ⟨valid.layout, by simp⟩

theorem add (name : String) (format : Format) :
    (builder.add name format).value.WellFormed := by
  by_cases packing : builder.isPacking = true
  · simpa [Builder.add, packing] using valid
  · by_cases declared : builder.isDeclared name = true
    · simpa [Builder.add, packing, declared] using valid
    · have shut : builder.group? = none := by simpa [isPacking] using packing
      rw [Builder.add, if_neg packing, if_neg declared]
      refine ⟨?_, ?_⟩
      · exact consistent_place valid.layout rfl (by simp) (by simp)
          (by simpa using declared) (by simp)
      · intro group opened
        simp [place, shut] at opened

theorem beginPacked (name? : Option String) :
    (builder.beginPacked name?).value.WellFormed := by
  rw [value_beginPacked]
  refine ⟨valid.layout, ?_⟩
  intro group opened
  obtain rfl := Option.some.inj opened
  exact opens_empty _ _

theorem addPackedField (name : String) (scalar : Scalar) (count bits : Nat) :
    (builder.step (.addPackedField name scalar count bits)).WellFormed := by
  rcases step_addPackedField builder name scalar count bits with
    same | ⟨group, opened, free, fresh, fits, same⟩
  · rw [same]
    exact valid
  · rw [same]
    have own := valid.opens group opened
    refine ⟨valid.layout, ?_⟩
    intro next extended
    obtain rfl := Option.some.inj extended
    have absent : ∀ field ∈ group.fields, field.name ≠ name := by
      simpa [PackedGroup.field?] using fresh
    refine ⟨own.wellFormed.append name scalar fits, ?_, ?_⟩
    · rw [PackedGroup.fields_append, List.map_append, List.nodup_append]
      refine ⟨own.distinct, by simp, ?_⟩
      intro first old second new
      obtain ⟨field, member, rfl⟩ := List.mem_map.mp old
      obtain rfl := List.mem_singleton.mp new
      exact absent field member
    · intro field member
      rw [PackedGroup.fields_append, List.mem_append, List.mem_singleton] at member
      rcases member with old | rfl
      · exact own.free field old
      · exact free

theorem endPacked : builder.endPacked.value.2.WellFormed := by
  cases opened : builder.group? with
  | none => simpa [Builder.endPacked, opened] using valid
  | some group =>
    by_cases filled : group.fields = []
    · simpa [Builder.endPacked, opened, filled] using valid.shut
    · have own := valid.opens group opened
      rw [value_endPacked opened filled]
      refine ⟨?_, by simp [place]⟩
      have declares : Attribute.declares ⟨group.name, .word, builder.offset, some group⟩ =
          group.fields.map fun field => (field.name, .packed field) := rfl
      apply consistent_place valid.shut.layout declares
      · simpa using filled
      · simpa [Function.comp_def] using own.distinct
      · intro part member
        obtain ⟨field, present, rfl⟩ := List.mem_map.mp member
        exact own.free field present
      · intro closed same
        obtain rfl := Option.some.inj same
        exact own.wellFormed

/-- Every call keeps the invariant. -/
theorem step (operation : Operation) : (builder.step operation).WellFormed := by
  cases operation with
  | add name format => exact valid.add name format
  | beginPacked name? => exact valid.beginPacked name?
  | addPackedField name scalar count bits => exact valid.addPackedField name scalar count bits
  | endPacked => exact valid.endPacked
  | discardPacked => exact valid.shut

end WellFormed

/-- What every call keeps, all calls together keep. -/
theorem holds_steps {Kept : Builder → Prop}
    (keeps : ∀ (builder : Builder) (operation : Operation), Kept builder →
      Kept (builder.step operation)) {builder : Builder} (kept : Kept builder)
    (operations : List Operation) : Kept (builder.steps operations) := by
  induction operations generalizing builder with
  | nil => exact kept
  | cons operation rest ih => exact ih (keeps builder operation kept)

theorem WellFormed.steps {builder : Builder} (valid : builder.WellFormed)
    (operations : List Operation) : (builder.steps operations).WellFormed :=
  holds_steps (fun _ operation valid => valid.step operation) valid operations

/-- Every layout that calls on a new builder declare is well formed. -/
theorem layoutOf_wellFormed (operations : List Operation) : (layoutOf operations).WellFormed := by
  rw [layoutOf, value_build]
  exact (wellFormed_empty.steps operations).layout.wellFormed

end Builder

end ShaderPipeline.Vertex
