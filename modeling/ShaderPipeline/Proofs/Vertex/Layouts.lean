import ShaderPipeline.Proofs.Vertex.PackedGroups
import ShaderPipeline.Vertex.Builder

/-! Layouts in which components, attributes and offsets agree. Giving an attribute the next free
bytes is the one step that extends a layout, and it keeps the agreement. -/

namespace ShaderPipeline.Vertex

/-- The components that an attribute stands for: itself, or the fields of its group in order. -/
def Attribute.declares (self : Attribute) : List (String × Storage) :=
  match self.packed with
  | none => [(self.name, .plain)]
  | some group => group.fields.map fun field => (field.name, .packed field)

def Component.part (component : Component) : String × Storage :=
  (component.name, component.storage)

namespace Layout

/-- The components that the attribute at `index` stores. -/
def partsOf (layout : Layout) (index : Nat) : List Component :=
  layout.components.filter fun component => component.attributeIndex = index

/-- Components, attributes and offsets of a layout agree. -/
structure Consistent (layout : Layout) : Prop where
  offset : ∀ (index : Nat) (input : Attribute), layout.attributes[index]? = some input →
    input.offset = runningSum Attribute.size layout.attributes index
  stride : layout.stride = total Attribute.size layout.attributes
  distinct : (layout.components.map Component.name).Nodup
  index : ∀ (position : Nat) (component : Component),
    layout.components[position]? = some component → component.index = position
  stored : ∀ component ∈ layout.components, component.attributeIndex < layout.attributes.length
  ordered : layout.components.Pairwise fun earlier later =>
    earlier.attributeIndex ≤ later.attributeIndex
  parts : ∀ (index : Nat) (input : Attribute), layout.attributes[index]? = some input →
    (layout.partsOf index).map Component.part = input.declares
  inhabited : ∀ input ∈ layout.attributes, input.declares ≠ []
  groups : ∀ input ∈ layout.attributes, ∀ group, input.packed = some group →
    group.WellFormed

/-- What a vertex layout promises to its readers. -/
structure WellFormed (layout : Layout) : Prop extends layout.Consistent where
  /-- No attribute reaches past the end of the vertex. -/
  within : ∀ input ∈ layout.attributes, input.offset + input.size ≤ layout.stride
  backed : ∀ index : Nat, index < layout.attributes.length →
    ∃ component ∈ layout.components, component.attributeIndex = index
  plain : ∀ component ∈ layout.components, component.storage = .plain →
    ∃ input, layout.attributes[component.attributeIndex]? = some input ∧
      input.packed = none ∧ input.name = component.name ∧
      layout.partsOf component.attributeIndex = [component]
  packed : ∀ (index : Nat) (input : Attribute) (group : PackedGroup),
    layout.attributes[index]? = some input →
    input.packed = some group →
    (layout.partsOf index).map Component.part =
      group.fields.map fun field => (field.name, .packed field)

theorem Consistent.within {layout : Layout} (valid : layout.Consistent) {input : Attribute}
    (member : input ∈ layout.attributes) :
    input.offset + input.size ≤ layout.stride := by
  obtain ⟨index, found⟩ := List.getElem?_of_mem member
  obtain ⟨bound, same⟩ := List.getElem?_eq_some_iff.mp found
  have whole : layout.attributes =
      layout.attributes.take index ++ input :: layout.attributes.drop (index + 1) := by
    rw [← same, List.getElem_cons_drop, List.take_append_drop]
  have sums := congrArg (total Attribute.size) whole
  rw [total_append, total_cons] at sums
  rw [valid.offset index input found, valid.stride, runningSum]
  omega

theorem Consistent.backed {layout : Layout} (valid : layout.Consistent) {index : Nat}
    (bound : index < layout.attributes.length) :
    ∃ component ∈ layout.components, component.attributeIndex = index := by
  have found := List.getElem?_eq_getElem bound
  have parts := valid.parts index _ found
  have declared := valid.inhabited _ (List.getElem_mem bound)
  cases stored : layout.partsOf index with
  | nil =>
    rw [stored, List.map_nil] at parts
    exact absurd parts.symm declared
  | cons component rest =>
    have member : component ∈ layout.partsOf index := by simp [stored]
    obtain ⟨present, same⟩ := List.mem_filter.mp member
    exact ⟨component, present, by simpa using same⟩

private theorem mem_partsOf {layout : Layout} {component : Component}
    (member : component ∈ layout.components) :
    component ∈ layout.partsOf component.attributeIndex := by
  simp [partsOf, member]

/-- A plain component is alone in an unpacked attribute of its name. -/
theorem Consistent.plain {layout : Layout} (valid : layout.Consistent) {component : Component}
    (member : component ∈ layout.components) (plain : component.storage = .plain) :
    ∃ input, layout.attributes[component.attributeIndex]? = some input ∧
      input.packed = none ∧ input.name = component.name ∧
      layout.partsOf component.attributeIndex = [component] := by
  obtain ⟨input, found⟩ : ∃ input, layout.attributes[component.attributeIndex]? = some input :=
    ⟨_, List.getElem?_eq_getElem (valid.stored component member)⟩
  have parts := valid.parts _ _ found
  have own := mem_partsOf member
  refine ⟨input, found, ?_⟩
  cases packed : input.packed with
  | none =>
    simp only [Attribute.declares, packed] at parts
    obtain ⟨first, alone, part⟩ := List.map_eq_singleton_iff.mp parts
    rw [alone, List.mem_singleton] at own
    subst own
    exact ⟨rfl, (congrArg Prod.fst part).symm, alone⟩
  | some group =>
    simp only [Attribute.declares, packed] at parts
    have listed := List.mem_map_of_mem (f := Component.part) own
    rw [parts] at listed
    obtain ⟨field, _, same⟩ := List.mem_map.mp listed
    have storage := congrArg Prod.snd same
    simp [Component.part, plain] at storage

theorem Consistent.wellFormed {layout : Layout} (valid : layout.Consistent) :
    layout.WellFormed where
  toConsistent := valid
  within _ member := valid.within member
  backed _ bound := valid.backed bound
  plain _ member plain := valid.plain member plain
  packed index input group found packed := by
    rw [valid.parts index input found, Attribute.declares, packed]

end Layout

end ShaderPipeline.Vertex
