import Mathlib.Data.List.Forall2
import Mathlib.Data.List.Nodup
import ShaderPipeline.Proofs.Vertex.GroupNames

/-! The names that the shader code of a layout declares: one for each attribute, which is a plain
component or a packed group, and one for each component that is unpacked. Components have names of
their own, but nothing keeps a group from the name of a component or of another group. -/

namespace ShaderPipeline.Vertex

namespace Layout

/-- The names of the shader inputs. -/
def inputNames (layout : Layout) : List String := layout.attributes.map Attribute.name

/-- The names of the components that are read of packed groups. -/
def unpackedNames (layout : Layout) : List String :=
  layout.packedGroups.flatMap fun group => group.fields.map PackedField.name

/-- The names of the attributes that are components themselves. -/
def plainNames (layout : Layout) : List String :=
  (layout.attributes.filter (·.packed.isNone)).map Attribute.name

/-- No two inputs have one name, and none has that of an unpacked component. -/
def DistinctInputs (layout : Layout) : Prop :=
  layout.inputNames.Nodup ∧ ∀ name ∈ layout.inputNames, name ∉ layout.unpackedNames

/-- Packed groups have names of their own, which no component has. -/
def GroupsNamedApart (layout : Layout) : Prop :=
  layout.groupNames.Nodup ∧
    ∀ name ∈ layout.groupNames, name ∉ layout.components.map Component.name

instance : DecidablePred DistinctInputs := fun layout =>
  inferInstanceAs (Decidable (layout.inputNames.Nodup ∧
    ∀ name ∈ layout.inputNames, name ∉ layout.unpackedNames))

instance : DecidablePred GroupsNamedApart := fun layout =>
  inferInstanceAs (Decidable (layout.groupNames.Nodup ∧
    ∀ name ∈ layout.groupNames, name ∉ layout.components.map Component.name))

/-- Components are those that the attributes stand for, and packed attributes are called as their
groups. -/
structure Named (layout : Layout) : Prop where
  components : layout.components.map Component.name =
    layout.attributes.flatMap fun input => input.declares.map Prod.fst
  groups : ∀ input ∈ layout.attributes, ∀ group, input.packed = some group →
    input.name = group.name

end Layout

namespace Builder

private theorem named_place {builder : Builder} (named : builder.layout.Named) {name : String}
    {format : Format} {packed : Option PackedGroup} {parts : List (String × Storage)}
    (declares : Attribute.declares ⟨name, format, builder.offset, packed⟩ = parts)
    (groups : ∀ group, packed = some group → name = group.name) :
    (builder.place name format packed parts).layout.Named where
  components := by
    have before : builder.components.map Component.name = _ := named.components
    rw [layout_place, List.map_append, map_name_placed, before, List.flatMap_append,
      List.flatMap_singleton, declares]
    rfl
  groups := by
    rw [layout_place, List.forall_mem_append]
    refine ⟨named.groups, fun input member => ?_⟩
    obtain rfl := List.mem_singleton.mp member
    exact groups

private theorem named_step {builder : Builder} (named : builder.layout.Named)
    (operation : Operation) :
    (builder.step operation).layout.Named := by
  have does := builder.does_step operation
  generalize builder.step operation = next at does
  cases does with
  | rejected | opened | extended | dropped => exact named
  | added => exact named_place named rfl nofun
  | closed =>
    refine @named_place { builder with group? := none } named _ _ _ _ rfl fun group same => ?_
    obtain rfl := Option.some.inj same
    rfl

private theorem named_layoutOf (operations : List Operation) : (layoutOf operations).Named := by
  rw [layoutOf, value_build]
  have none : (layout empty).Named := ⟨rfl, fun _ absent => absurd absent List.not_mem_nil⟩
  exact @holds_steps (fun builder => builder.layout.Named)
    (fun _ operation named => named_step named operation) empty none operations

end Builder

namespace Layout

/-! ### Where names meet -/

/-- Attributes are called as plain components and as groups. -/
theorem perm_map_name {attributes : List Attribute}
    (groups : ∀ input ∈ attributes, ∀ group, input.packed = some group → input.name = group.name) :
    (attributes.map Attribute.name).Perm
      ((attributes.filter (·.packed.isNone)).map Attribute.name ++
        (attributes.filterMap Attribute.packed).map PackedGroup.name) := by
  induction attributes with
  | nil => exact .nil
  | cons input rest ih =>
    obtain ⟨own, others⟩ := List.forall_mem_cons.mp groups
    have names := (ih others).cons input.name
    cases packed : input.packed with
    | none => simpa [packed] using names
    | some group =>
      have middle := names.trans List.perm_middle.symm
      simpa [packed, own group packed] using middle

/-- Attributes stand for plain components and for the fields of groups. -/
theorem perm_flatMap_declares (attributes : List Attribute) :
    (attributes.flatMap fun input => input.declares.map Prod.fst).Perm
      ((attributes.filter (·.packed.isNone)).map Attribute.name ++
        (attributes.filterMap Attribute.packed).flatMap fun group =>
          group.fields.map PackedField.name) := by
  induction attributes with
  | nil => exact .nil
  | cons input rest ih =>
    rw [List.flatMap_cons]
    cases packed : input.packed with
    | none => simpa [Attribute.declares, packed] using ih.cons input.name
    | some group =>
      have fields := (ih.append_left (group.fields.map PackedField.name)).trans
        (List.perm_append_comm_assoc _ _ _)
      simpa [Attribute.declares, packed, Function.comp_def] using fields

section Names

variable {layout : Layout} (named : layout.Named)
include named

theorem Named.perm_inputs : layout.inputNames.Perm (layout.plainNames ++ layout.groupNames) :=
  perm_map_name named.groups

theorem Named.perm_components :
    (layout.components.map Component.name).Perm (layout.plainNames ++ layout.unpackedNames) :=
  named.components ▸ perm_flatMap_declares layout.attributes

variable (distinct : (layout.components.map Component.name).Nodup)
include distinct

theorem Named.plain_unpacked : (layout.plainNames ++ layout.unpackedNames).Nodup :=
  named.perm_components.nodup_iff.mp distinct

/-- Names meet where the name of a group meets that of a component or of another group. -/
theorem Named.distinctInputs_iff : layout.DistinctInputs ↔ layout.GroupsNamedApart := by
  obtain ⟨plain, _, apart⟩ := List.nodup_append.mp (named.plain_unpacked distinct)
  rw [DistinctInputs, GroupsNamedApart, named.perm_inputs.nodup_iff, List.nodup_append]
  simp only [named.perm_inputs.mem_iff, named.perm_components.mem_iff, List.mem_append]
  constructor
  · rintro ⟨⟨_, groups, others⟩, free⟩
    refine ⟨groups, fun name group taken => ?_⟩
    rcases taken with plainly | unpacked
    · exact others name plainly name group rfl
    · exact free name (.inr group) unpacked
  · rintro ⟨groups, free⟩
    refine ⟨⟨plain, groups, ?_⟩, ?_⟩
    · rintro name plainly _ group rfl
      exact free name group (.inl plainly)
    · intro name taken unpacked
      rcases taken with plainly | group
      · exact apart name plainly name unpacked rfl
      · exact free name group (.inr unpacked)

/-- No attribute is there twice, since its components are not. -/
theorem Named.nodup_attributes (inhabited : ∀ input ∈ layout.attributes, input.declares ≠ []) :
    layout.attributes.Nodup := by
  rw [named.components, List.nodup_flatMap] at distinct
  refine distinct.2.imp_of_mem fun {first second} here _ apart same => ?_
  subst same
  have none := List.eq_nil_iff_forall_not_mem.mpr fun name member => apart member member
  exact inhabited first here (List.map_eq_nil_iff.mp none)

end Names

/-- Every attribute is found under its name exactly if the names are distinct. -/
theorem attribute?_iff {layout : Layout} (attributes : layout.attributes.Nodup) :
    (∀ input ∈ layout.attributes, layout.attribute? input.name = some input) ↔
      layout.inputNames.Nodup := by
  rw [inputNames, List.nodup_map_iff_inj_on attributes]
  constructor
  · intro finds first here second there same
    have found := finds first here
    rw [same, finds second there] at found
    exact (Option.some.inj found).symm
  · intro apart input member
    cases found : layout.attribute? input.name with
    | none => simpa using List.find?_eq_none.mp found input member
    | some other =>
      have same : other.name = input.name := by simpa using List.find?_some found
      rw [apart other (List.mem_of_find?_eq_some found) input member same]

/-! ### What the shader code declares -/

/-- A text with a line for each name. -/
def Prints (states : String → String → Prop) (names : List String) (text : String) : Prop :=
  ∃ lines, text = String.intercalate "\n" lines ∧ List.Forall₂ states lines names

def StatesInput (line name : String) : Prop :=
  ∃ integer count, line = s!"in {shaderType integer count} {name};"

def StatesComponent (line name : String) : Prop :=
  ∃ (count : Nat) (value : String), line = s!"{shaderType true count} {name} = {value};"

private theorem prints_inputDeclarations (layout : Layout) :
    Prints StatesInput layout.inputNames layout.inputDeclarations := by
  refine ⟨_, rfl, ?_⟩
  rw [inputNames, List.forall₂_map_left_iff, List.forall₂_map_right_iff]
  exact List.forall₂_same.mpr fun input _ => ⟨input.format.asInteger, input.format.count, rfl⟩

private theorem statesComponent_unpackStatement (field : PackedField) (group : String) :
    StatesComponent (field.unpackStatement group) field.name := by
  refine ⟨field.count, ?_⟩
  rw [PackedField.unpackStatement]
  split
  · exact ⟨_, rfl⟩
  · refine ⟨shaderType true field.count ++ "(" ++
      String.intercalate ", " ((field.extractions group).map Extraction.text) ++ ")", ?_⟩
    simp [ToString.toString, String.append_assoc]

private theorem prints_unpackStatements (layout : Layout) :
    Prints StatesComponent layout.unpackedNames layout.unpackStatements := by
  refine ⟨_, rfl, ?_⟩
  rw [unpackedNames]
  induction layout.packedGroups with
  | nil => exact .nil
  | cons group rest ih =>
    rw [List.flatMap_cons, List.flatMap_cons]
    refine List.rel_append ?_ ih
    rw [PackedGroup.unpackStatements, List.forall₂_map_left_iff, List.forall₂_map_right_iff]
    exact List.forall₂_same.mpr fun field _ => statesComponent_unpackStatement field group.name

/-- The names of a layout's inputs and unpacked components. -/
structure NamesSettled (layout : Layout) : Prop where
  inputs : Prints StatesInput layout.inputNames layout.inputDeclarations
  unpacked : Prints StatesComponent layout.unpackedNames layout.unpackStatements
  /-- Plain and unpacked components have names of their own. -/
  plain : (layout.plainNames ++ layout.unpackedNames).Nodup
  distinct : layout.DistinctInputs ↔ layout.GroupsNamedApart
  found : (∀ input ∈ layout.attributes, layout.attribute? input.name = some input) ↔
    layout.inputNames.Nodup
  /-- A group has the name that a call gives, or a default name that no other group has. -/
  given : ∀ operations, layout = Builder.layoutOf operations → ∀ name ∈ layout.groupNames,
    .beginPacked (some name) ∈ operations ∨
      (∃ number, name = defaultName number) ∧ layout.groupNames.count name = 1

/-- The inputs of a declared layout are distinct from one another and from the unpacked components
exactly if each group has a name that is neither a component's nor another group's. -/
theorem names_settled {layout : Layout} (declared : layout.Declared) : layout.NamesSettled := by
  obtain ⟨operations, rfl⟩ := declared.exists_operations
  have valid := Builder.layoutOf_wellFormed operations
  have named := Builder.named_layoutOf operations
  constructor
  case inputs => exact prints_inputDeclarations _
  case unpacked => exact prints_unpackStatements _
  case plain => exact named.plain_unpacked valid.distinct
  case distinct => exact named.distinctInputs_iff valid.distinct
  case found => exact attribute?_iff (named.nodup_attributes valid.distinct valid.inhabited)
  case given =>
    intro others same name member
    rw [same] at member ⊢
    exact or_iff_not_imp_left.mpr fun unnamed => groupNames_unnamed unnamed member

/-- A named group and one without a name between plain attributes. -/
def twoGroupsText : Text :=
  "packed cell \x7b ivec2 at 10 \x7d\nvec2 uv\npacked \x7b byte kind 4 \x7d".toList

def twoGroupsLayout : Layout where
  components := [⟨"at", 0, 0, .packed ⟨"at", .int, 2, 10, 0⟩⟩, ⟨"uv", 1, 1, .plain⟩,
    ⟨"kind", 2, 2, .packed ⟨"kind", .byte, 1, 4, 0⟩⟩]
  attributes := [⟨"cell", .word, 0, some ⟨"cell", [⟨"at", .int, 2, 10, 0⟩]⟩⟩,
    ⟨"uv", ⟨.float, 2, false⟩, 4, none⟩,
    ⟨"packed1", .word, 12, some ⟨"packed1", [⟨"kind", .byte, 1, 4, 0⟩]⟩⟩]
  stride := 16

theorem names_settled_twoGroups :
    (ofSection twoGroupsText).run.value = .ok (some twoGroupsLayout) ∧
      twoGroupsLayout.NamesSettled ∧ twoGroupsLayout.DistinctInputs := by
  have read : (ofSection twoGroupsText).run.value = .ok (some twoGroupsLayout) := by rfl
  have settled := names_settled (.read read)
  exact ⟨read, settled, settled.distinct.mpr (by decide)⟩

/-- A group that is called as the attribute before it. -/
def namesakeText : Text := "vec3 position\npacked position \x7b\nbyte kind 4\n\x7d".toList

def namesakeLayout : Layout where
  components := [⟨"position", 0, 0, .plain⟩, ⟨"kind", 1, 1, .packed ⟨"kind", .byte, 1, 4, 0⟩⟩]
  attributes := [⟨"position", ⟨.float, 3, false⟩, 0, none⟩,
    ⟨"position", .word, 12, some ⟨"position", [⟨"kind", .byte, 1, 4, 0⟩]⟩⟩]
  stride := 16

/-- Its two inputs have one name, and only the first is found under it. -/
theorem group_takes_attribute_name :
    (ofSection namesakeText).run.value = .ok (some namesakeLayout) ∧
      namesakeLayout.inputDeclarations = "in vec3 position;\nin int position;" ∧
      ¬ namesakeLayout.inputNames.Nodup ∧
      ∃ input ∈ namesakeLayout.attributes, namesakeLayout.attribute? input.name ≠ some input :=
  ⟨by rfl, by decide +kernel, by decide, by decide⟩

end Layout

end ShaderPipeline.Vertex
