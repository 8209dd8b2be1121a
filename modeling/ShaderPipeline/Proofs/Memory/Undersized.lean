import ShaderPipeline.Proofs.Memory.Placement

/-! When the layout of declared structs has no answer. A struct whose members are left out for their
size is laid out with fewer bytes than it was declared with, and a member of such a type takes away
more than it has. Nothing else fails. -/

namespace ShaderPipeline.Memory

open Schema

variable {types : Types} {rule : Rule}

/-- Structs of other names do not hide a struct. -/
theorem placeIn_append {later : List Struct} {name : String}
    (apart : ∀ struct ∈ later, struct.name ≠ name) (earlier : List Struct) :
    placeIn rule (later ++ earlier) name = placeIn rule earlier name := by
  induction later with
  | nil => rfl
  | cons struct rest ih =>
    rw [List.cons_append, placeIn, if_neg (apart struct List.mem_cons_self)]
    exact ih fun other member => apart other (List.mem_cons_of_mem struct member)

/-- The sizes of the structs of a list, the latest first. -/
def sizesIn (rule : Rule) (structs : List Struct) : Nesting := fun name =>
  match placeIn rule structs name with
  | none => return none
  | some (found, placements) => return some ⟨(← placements).size, found.size⟩

private theorem nesting_eq (types : Types) (rule : Rule) :
    nesting types rule = sizesIn rule types.structs.reverse := rfl

theorem sizesIn_congr {structs others : List Struct} {name : String}
    (same : placeIn rule structs name = placeIn rule others name) :
    sizesIn rule structs name = sizesIn rule others name := by
  rw [sizesIn, sizesIn, same]

/-- The search for a declared struct finds it, and places its members with the sizes of all
structs. -/
theorem placeIn_declared {structs later earlier : List Struct} {struct : Struct}
    (declared : Declared structs) (split : structs = later ++ struct :: earlier) :
    placeIn rule structs struct.name =
      some (struct, place struct.name struct.properties rule (sizesIn rule structs)) := by
  subst split
  obtain ⟨inner, apart⟩ := declared.of_append
  cases inner with
  | cons fresh known before =>
    have named : ∀ other ∈ later, other.name ≠ struct.name := fun other member =>
      apart other member struct List.mem_cons_self
    have found : placeIn rule (struct :: earlier) struct.name =
        some (struct, place struct.name struct.properties rule (sizesIn rule earlier)) := by
      rw [placeIn, if_pos rfl]
      rfl
    rw [placeIn_append named, found]
    refine congrArg (fun placed => some (struct, placed)) (place_congr _ fun property member => ?_)
    cases type : property.type with
    | value type => rfl
    | struct nested =>
      have reached := known property member
      rw [type] at reached
      obtain ⟨target, old, rfl⟩ := reached
      refine sizesIn_congr ?_
      rw [placeIn_append fun other member =>
          apart other member target (List.mem_cons_of_mem struct old),
        placeIn, if_neg (fresh target old).symm]

theorem placeStruct_declared (valid : types.WellFormed) {struct : Struct}
    (member : struct ∈ types.structs) :
    placeStruct types rule struct.name =
      some (place struct.name struct.properties rule (nesting types rule)) := by
  obtain ⟨later, earlier, split⟩ := List.append_of_mem (List.mem_reverse.mpr member)
  rw [placeStruct, placeIn_declared valid split]
  rfl

theorem nesting_declared (valid : types.WellFormed) {struct : Struct}
    (member : struct ∈ types.structs) :
    nesting types rule struct.name = do
      let placements ← place struct.name struct.properties rule (nesting types rule)
      return some ⟨placements.size, struct.size⟩ := by
  obtain ⟨later, earlier, split⟩ := List.append_of_mem (List.mem_reverse.mpr member)
  rw [nesting_eq, sizesIn, placeIn_declared valid split]

/-! ### Undersized members -/

/-- The offset behind members, if they can be placed. -/
def offsetAfter (types : Types) (rule : Rule) (properties : List Property) :
    Except Overflow Nat :=
  (placeFrom "" rule (nesting types rule) 0 properties).result.map Prod.snd

/-- A member that fits behind those before it is of a struct whose layout takes fewer bytes than the
struct was declared with, or the struct of a member has such a member in turn. -/
inductive Undersized (types : Types) (rule : Rule) : List Property → Prop
  | placed {before after : List Property} {property : Property} {inner : Struct}
      {placements : Placements} {offset : Nat}
      (behind : offsetAfter types rule before = .ok offset)
      (type : property.type = .struct inner.name) (declared : inner ∈ types.structs)
      (laid : (place inner.name inner.properties rule (nesting types rule)).result =
        .ok placements)
      (room : fits offset (placements.size * property.length) = true)
      (less : placements.size < inner.size) :
      Undersized types rule (before ++ property :: after)
  | nested {properties : List Property} {property : Property} {inner : Struct}
      (member : property ∈ properties) (type : property.type = .struct inner.name)
      (declared : inner ∈ types.structs) (deep : Undersized types rule inner.properties) :
      Undersized types rule properties

/-- A measurement without an answer where `short` holds, and with one everywhere else. The one
operation that leaves 32 bits is the subtraction of the bytes that an element has. -/
structure FailsIff (result : Except Overflow α) (short : Prop) : Prop where
  fails : short → result = .error .subtract
  completes : ¬ short → ∃ answer, result = .ok answer

theorem FailsIff.of_error {result : Except Overflow α} {short : Prop} (failed : short)
    (same : result = .error .subtract) : FailsIff result short :=
  ⟨fun _ => same, fun sound => absurd failed sound⟩

theorem FailsIff.of_ok {result : Except Overflow α} {short : Prop} {answer : α}
    (sound : ¬ short) (same : result = .ok answer) : FailsIff result short :=
  ⟨fun failed => absurd failed sound, fun _ => ⟨answer, same⟩⟩

theorem FailsIff.cases {result : Except Overflow α} {short : Prop}
    (outcome : FailsIff result short) :
    (short ∧ result = .error .subtract) ∨ (¬ short ∧ ∃ answer, result = .ok answer) := by
  by_cases failed : short
  · exact .inl ⟨failed, outcome.fails failed⟩
  · exact .inr ⟨failed, outcome.completes failed⟩

/-- Members whose structs fail exactly where they are undersized. -/
def Settled (types : Types) (rule : Rule) (properties : List Property) : Prop :=
  ∀ property ∈ properties, ∀ name, property.type = .struct name →
    ∃ inner ∈ types.structs, inner.name = name ∧
      FailsIff (place inner.name inner.properties rule (nesting types rule)).result
        (Undersized types rule inner.properties)

theorem result_elementSize_struct (rule : Rule) (valid : types.WellFormed) {inner : Struct}
    (declared : inner ∈ types.structs) :
    (elementSize rule (nesting types rule) (.struct inner.name)).result =
      (place inner.name inner.properties rule (nesting types rule)).result.map fun placements =>
        some ⟨placements.size, inner.size⟩ := by
  rw [elementSize, nesting_declared valid declared, Measured.result_bind]
  cases (place inner.name inner.properties rule (nesting types rule)).result <;> rfl

/-- A member has a size, and one of its own bytes if it is of a built-in type, or its struct is
undersized. -/
theorem Settled.sized (valid : types.WellFormed) {properties : List Property}
    (known : Known types.structs properties) (settled : Settled types rule properties)
    {property : Property} (member : property ∈ properties) :
    (∃ element, (elementSize rule (nesting types rule) property.type).result = .ok (some element) ∧
      (element.padded < element.tight → ∃ inner ∈ types.structs, ∃ placements,
        property.type = .struct inner.name ∧ element = ⟨placements.size, inner.size⟩ ∧
        (place inner.name inner.properties rule (nesting types rule)).result =
          .ok placements)) ∨
      ((elementSize rule (nesting types rule) property.type).result = .error .subtract ∧
        Undersized types rule properties) := by
  cases type : property.type with
  | value builtIn =>
    have enough : builtIn.size ≤ rule.valueSize builtIn := by
      have listed := known property member
      rw [type] at listed
      exact size_le_valueSize rule builtIn listed
    exact .inl ⟨_, rfl, fun less => absurd less (Nat.not_lt.mpr enough)⟩
  | struct name =>
    obtain ⟨inner, declared, rfl, outcome⟩ := settled property member name type
    rw [result_elementSize_struct rule valid declared]
    rcases outcome.cases with ⟨short, failed⟩ | ⟨_, placements, answered⟩
    · exact .inr ⟨by rw [failed]; rfl, .nested member type declared short⟩
    · exact .inl ⟨⟨placements.size, inner.size⟩, by rw [answered]; rfl,
        fun _ => ⟨inner, declared, placements, rfl, rfl, answered⟩⟩

private theorem offsetAfter_append {before : List Property} {offset : Nat}
    (behind : offsetAfter types rule before = .ok offset) (more : List Property) :
    offsetAfter types rule (before ++ more) =
      (placeFrom "" rule (nesting types rule) offset more).result.map Prod.snd := by
  rw [offsetAfter, result_placeFrom_append]
  rw [offsetAfter] at behind
  cases placed : (placeFrom "" rule (nesting types rule) 0 before).result with
  | error overflow => rw [placed] at behind; cases behind
  | ok ends =>
    rw [placed] at behind
    cases behind
    dsimp only
    cases (placeFrom "" rule (nesting types rule) ends.2 more).result <;> rfl

/-- Members that cannot be placed are undersized, and the failure is a subtraction. -/
theorem undersized_of_error (valid : types.WellFormed) (before : List Property)
    {properties : List Property}
    (known : Known types.structs (before ++ properties))
    (settled : Settled types rule (before ++ properties)) {offset : Nat}
    (behind : offsetAfter types rule before = .ok offset) {overflow : Overflow}
    (failed : (placeFrom "" rule (nesting types rule) offset properties).result =
      .error overflow) :
    overflow = .subtract ∧ Undersized types rule (before ++ properties) := by
  induction properties generalizing before offset with
  | nil => cases failed
  | cons property rest ih =>
    have shifted : before ++ property :: rest = (before ++ [property]) ++ rest := by simp
    have next := offsetAfter_append behind [property]
    rw [result_placeFrom_cons] at failed next
    rcases settled.sized valid known
      (List.mem_append_right before List.mem_cons_self) with
      ⟨element, sized, origin⟩ | ⟨short, under⟩
    · rw [sized] at failed next
      dsimp only at failed next
      by_cases room : fits offset (element.padded * property.length) = true
      · rw [if_pos room] at failed next
        by_cases less : element.padded < element.tight
        · rw [if_pos less] at failed
          cases failed
          obtain ⟨inner, declared, placements, type, rfl, laid⟩ := origin less
          exact ⟨rfl, .placed behind type declared laid room less⟩
        · rw [if_neg less] at failed next
          rw [shifted] at known settled ⊢
          refine ih (before ++ [property]) known settled next ?_
          cases others : (placeFrom "" rule (nesting types rule) _ rest).result with
          | error inner =>
            rw [others] at failed
            cases failed
            rfl
          | ok placed => rw [others] at failed; cases failed
      · rw [if_neg room] at failed next
        rw [shifted] at known settled ⊢
        exact ih (before ++ [property]) known settled next failed
    · rw [short] at failed
      cases failed
      exact ⟨rfl, under⟩

/-- A placement of all members has a size for each of them. -/
theorem sized_of_ok {sizes : Nesting} {offset : Nat} {outer : String}
    {properties : List Property} {ends : List Placement × Nat}
    (placed : (placeFrom outer rule sizes offset properties).result = .ok ends)
    {property : Property} (member : property ∈ properties) :
    ∃ element?, (elementSize rule sizes property.type).result = .ok element? := by
  induction properties generalizing offset ends with
  | nil => cases member
  | cons first rest ih =>
    rw [result_placeFrom_cons] at placed
    cases sized : (elementSize rule sizes first.type).result with
    | error overflow => rw [sized] at placed; cases placed
    | ok element? =>
      rcases List.mem_cons.mp member with rfl | later
      · exact ⟨element?, sized⟩
      · rw [sized] at placed
        cases element? with
        | none => exact ih placed later
        | some element =>
          dsimp only at placed
          split at placed
          next =>
            split at placed
            next => cases placed
            next =>
              cases others : (placeFrom outer rule sizes _ rest).result with
              | error overflow => rw [others] at placed; cases placed
              | ok more => exact ih others later
          next => exact ih placed later

/-- Undersized members cannot be placed. -/
theorem error_of_undersized (valid : types.WellFormed) {properties : List Property}
    (settled : Settled types rule properties) (under : Undersized types rule properties) :
    ∃ overflow, (placeFrom "" rule (nesting types rule) 0 properties).result =
      .error overflow := by
  cases placed : (placeFrom "" rule (nesting types rule) 0 properties).result with
  | error overflow => exact ⟨overflow, rfl⟩
  | ok ends =>
    exfalso
    cases under with
    | @placed before after property inner placements offset behind type declared laid room less =>
      have whole := offsetAfter_append behind (property :: after)
      have sized := result_elementSize_struct rule valid declared
      rw [laid] at sized
      rw [offsetAfter, placed, result_placeFrom_cons, type, sized] at whole
      simp [Except.map, room, less] at whole
    | @nested _ property inner member type declared deep =>
      obtain ⟨other, found, same, outcome⟩ := settled property member inner.name type
      obtain rfl := valid.eq_of_name (List.mem_reverse.mpr found) (List.mem_reverse.mpr declared)
        same
      obtain ⟨element?, sized⟩ := sized_of_ok placed member
      rw [type, result_elementSize_struct rule valid declared, outcome.fails deep] at sized
      cases sized

/-- Members are laid out exactly where none is undersized. -/
theorem failsIff_place (valid : types.WellFormed) (name : String) {properties : List Property}
    (known : Known types.structs properties) (settled : Settled types rule properties) :
    FailsIff (place name properties rule (nesting types rule)).result
      (Undersized types rule properties) := by
  have start : offsetAfter types rule [] = .ok 0 := rfl
  rcases @result_place rule (nesting types rule) name properties with
    ⟨overflow, members, whole⟩ | ⟨members, finish, placements, placed, whole⟩
  · rw [result_placeFrom_outer name ""] at members
    obtain ⟨rfl, under⟩ := undersized_of_error valid [] known settled start members
    exact .of_error under whole
  · rw [result_placeFrom_outer name ""] at placed
    refine .of_ok (fun under => ?_) whole
    obtain ⟨overflow, failed⟩ := error_of_undersized valid settled under
    rw [placed] at failed
    cases failed

/-- The members of declared structs are settled, from the first declaration on. -/
theorem settled_declared (valid : types.WellFormed) :
    ∀ struct ∈ types.structs, FailsIff
      (place struct.name struct.properties rule (nesting types rule)).result
      (Undersized types rule struct.properties) := by
  refine valid.induction fun struct member inner => ?_
  have known := valid.known member
  refine failsIff_place valid _ known fun property here name type => ?_
  have reached := known property here
  rw [type] at reached
  obtain ⟨target, found, rfl⟩ := reached
  exact ⟨target, found, rfl, inner target found property here type⟩

/-- The layout of a declared struct has an answer exactly where no member is undersized. -/
theorem failsIff_struct (rule : Rule) (valid : types.WellFormed) {struct : Struct}
    (member : struct ∈ types.structs) :
    ∃ layout, placeStruct types rule struct.name = some layout ∧
      FailsIff layout.result (Undersized types rule struct.properties) :=
  ⟨_, placeStruct_declared valid member,
    settled_declared valid struct member⟩

/-- So has the layout of members that name only declared structs. -/
theorem failsIff_known (rule : Rule) (valid : types.WellFormed) (name : String)
    {properties : List Property} (known : Known types.structs properties) :
    FailsIff (place name properties rule (nesting types rule)).result
      (Undersized types rule properties) := by
  refine failsIff_place valid name known fun property member nested type => ?_
  have reached := known property member
  rw [type] at reached
  obtain ⟨inner, declared, same⟩ := reached
  exact ⟨inner, declared, same, settled_declared valid inner declared⟩

/-- Measurements in a row have an answer exactly where each one has. -/
theorem failsIff_mapM {measure : α → Measured β} {short : α → Prop} {items : List α}
    (each : ∀ item ∈ items, FailsIff (measure item).result (short item)) :
    FailsIff (items.mapM measure).result (∃ item ∈ items, short item) := by
  induction items with
  | nil => exact .of_ok (by simp) rfl
  | cons first rest ih =>
    have others := ih fun item member => each item (List.mem_cons_of_mem first member)
    rw [List.mapM_cons, Measured.result_bind]
    rcases (each first List.mem_cons_self).cases with ⟨short, failed⟩ | ⟨sound, answer, found⟩
    · exact .of_error ⟨first, List.mem_cons_self, short⟩ (by rw [failed])
    · rw [found]
      dsimp only
      rw [Measured.result_bind]
      rcases others.cases with ⟨⟨item, member, short⟩, failed⟩ | ⟨allSound, answers, foundAll⟩
      · exact .of_error ⟨item, List.mem_cons_of_mem first member, short⟩ (by rw [failed])
      · refine .of_ok ?_ (by rw [foundAll]; rfl)
        rintro ⟨item, member, short⟩
        rcases List.mem_cons.mp member with rfl | member
        · exact sound short
        · exact allSound ⟨item, member, short⟩

end ShaderPipeline.Memory
