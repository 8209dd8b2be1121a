import ShaderPipeline.Proofs.Text.Numerals
import ShaderPipeline.Proofs.Vertex.LosslessGroups

/-! What packed groups are called: as their calls say, or by the number of the groups that were
opened before, whether they were placed or not. Default names differ from one another, so two
groups of one name have been called that. -/

namespace ShaderPipeline.Vertex

/-- The name of a group without one. -/
def defaultName (started : Nat) : String := s!"packed{started}"

private theorem defaultName_injective {first second : Nat}
    (same : defaultName first = defaultName second) : first = second := by
  have digits : Nat.toDigits 10 first = Nat.toDigits 10 second := by
    simpa [defaultName, Nat.repr] using congrArg String.toList same
  have values := congrArg (Text.digitsValue? 10 0) digits
  rw [Text.digitsValue?_toDigits, Text.digitsValue?_toDigits] at values
  exact Option.some.inj values

/-- The name of the group that a call opens, if it opens one. -/
def Operation.opens? (started : Nat) : Operation → Option String
  | .beginPacked name? => some (name?.getD (defaultName started))
  | _ => none

/-- The names of the groups that calls open behind `started` other groups. -/
def openedNames : (started : Nat) → List Operation → List String
  | _, [] => []
  | started, operation :: rest =>
    (operation.opens? started).toList ++
      openedNames (started + (operation.opens? started).toList.length) rest

def Layout.groupNames (layout : Layout) : List String := layout.packedGroups.map PackedGroup.name

namespace Builder

/-- The names of the groups that are placed, and of the open one. -/
def groupNames (builder : Builder) : List String :=
  builder.layout.groupNames ++ (builder.group?.map PackedGroup.name).toList

private theorem groupNames_place (builder : Builder) (name : String) (format : Format)
    (packed : Option PackedGroup) (parts : List (String × Storage)) :
    (builder.place name format packed parts).groupNames =
      builder.layout.groupNames ++ (packed.map PackedGroup.name).toList ++
        (builder.group?.map PackedGroup.name).toList := by
  rw [groupNames, Layout.groupNames, packedGroups_place, List.map_append]
  cases packed <;> rfl

theorem Rejects.opens?_eq_none {builder : Builder} {operation : Operation}
    (rejects : builder.Rejects operation) (started : Nat) : operation.opens? started = none := by
  cases rejects <;> rfl

/-- A call that opens a group counts it. The names that are left are older ones or its own. -/
theorem groupNames_step (builder : Builder) (operation : Operation) :
    let opened := (operation.opens? builder.groupsStarted).toList
    (builder.step operation).groupsStarted = builder.groupsStarted + opened.length ∧
      (builder.step operation).groupNames.Sublist (builder.groupNames ++ opened) := by
  have does := builder.does_step operation
  generalize builder.step operation = next at does
  cases does with
  | rejected rejects =>
    rw [rejects.opens?_eq_none]
    exact ⟨rfl, List.sublist_append_left _ _⟩
  | added shut free =>
    refine ⟨rfl, ?_⟩
    rw [groupNames_place]
    simp [groupNames, Operation.opens?]
  | opened name? =>
    refine ⟨rfl, ?_⟩
    exact (List.sublist_append_left _ _).append (List.Sublist.refl _)
  | extended opened wide free fresh fits =>
    refine ⟨rfl, ?_⟩
    simp [groupNames, Operation.opens?, opened, PackedGroup.append, layout]
  | closed opened filled =>
    refine ⟨rfl, ?_⟩
    rw [groupNames_place]
    simp [groupNames, Operation.opens?, opened, layout]
  | dropped drops =>
    rcases drops with rfl | rfl
    · exact ⟨rfl, by simp [groupNames, Operation.opens?, layout]⟩
    · exact ⟨rfl, by simp [groupNames, Operation.opens?, layout]⟩

private theorem groupNames_steps (builder : Builder) (operations : List Operation) :
    (builder.steps operations).groupNames.Sublist
      (builder.groupNames ++ openedNames builder.groupsStarted operations) := by
  induction operations generalizing builder with
  | nil => exact List.sublist_append_left _ _
  | cons operation rest ih =>
    obtain ⟨counted, names⟩ := groupNames_step builder operation
    have later := ih (builder.step operation)
    rw [counted] at later
    rw [openedNames, ← List.append_assoc]
    exact later.trans (names.append (List.Sublist.refl _))

/-- The groups of a layout have names under which they were opened, in their order. -/
theorem groupNames_layoutOf (operations : List Operation) :
    (layoutOf operations).groupNames.Sublist (openedNames 0 operations) := by
  rw [layoutOf, value_build]
  exact (List.sublist_append_left _ _).trans (groupNames_steps empty operations)

end Builder

section Default

variable {name : String} {operations : List Operation}

/-- A call that does not give the name to its group gives it as the next default name. -/
theorem eq_defaultName_of_opens? {started : Nat} {operation : Operation}
    (other : .beginPacked (some name) ≠ operation) (here : operation.opens? started = some name) :
    name = defaultName started := by
  cases operation with
  | beginPacked name? =>
    cases name? with
    | none => exact (Option.some.inj here).symm
    | some given =>
      obtain rfl := Option.some.inj here
      exact absurd rfl other
  | _ => cases here

private theorem eq_defaultName_of_mem {started : Nat}
    (unnamed : .beginPacked (some name) ∉ operations)
    (member : name ∈ openedNames started operations) :
    ∃ number, started ≤ number ∧ name = defaultName number := by
  induction operations generalizing started with
  | nil => cases member
  | cons operation rest ih =>
    obtain ⟨other, others⟩ := not_or.mp (mt List.mem_cons.mpr unnamed)
    rw [openedNames, List.mem_append, Option.mem_toList] at member
    rcases member with here | later
    · exact ⟨started, Nat.le_refl _, eq_defaultName_of_opens? other here⟩
    · obtain ⟨number, bound, same⟩ := ih others later
      exact ⟨number, Nat.le_trans (Nat.le_add_right _ _) bound, same⟩

/-- A name that no call gives is the name of one group at most. -/
theorem count_openedNames_le (started : Nat) (unnamed : .beginPacked (some name) ∉ operations) :
    (openedNames started operations).count name ≤ 1 := by
  induction operations generalizing started with
  | nil => exact Nat.zero_le 1
  | cons operation rest ih =>
    obtain ⟨other, others⟩ := not_or.mp (mt List.mem_cons.mpr unnamed)
    rw [openedNames, List.count_append]
    by_cases here : operation.opens? started = some name
    · -- The number of a later default name is larger.
      have absent : name ∉ openedNames (started + 1) rest := by
        intro later
        obtain ⟨number, bound, same⟩ := eq_defaultName_of_mem others later
        have equal := defaultName_injective ((eq_defaultName_of_opens? other here).symm.trans same)
        omega
      rw [here, Option.toList_some, List.length_singleton, List.count_eq_zero_of_not_mem absent]
      simp
    · have none : (operation.opens? started).toList.count name = 0 :=
        List.count_eq_zero_of_not_mem (by simpa using here)
      rw [none, Nat.zero_add]
      exact ih _ others

end Default

/-- The names of the groups of a layout that calls declare. One that no call gives is a default
name, and no other group has it. -/
theorem Layout.groupNames_unnamed {operations : List Operation} {name : String}
    (unnamed : .beginPacked (some name) ∉ operations)
    (member : name ∈ (Builder.layoutOf operations).groupNames) :
    (∃ number, name = defaultName number) ∧
      (Builder.layoutOf operations).groupNames.count name = 1 := by
  have opened := Builder.groupNames_layoutOf operations
  obtain ⟨number, _, same⟩ := eq_defaultName_of_mem unnamed (opened.subset member)
  have once := Nat.le_trans (opened.count_le name) (count_openedNames_le 0 unnamed)
  exact ⟨⟨number, same⟩, Nat.le_antisymm once (List.count_pos_iff.mpr member)⟩

end ShaderPipeline.Vertex
