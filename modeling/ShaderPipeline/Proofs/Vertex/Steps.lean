import ShaderPipeline.Proofs.Vertex.Operations

/-! What a call on a builder does, with all that is known where it does it. A call is turned down
and changes nothing, or it makes one of five changes. -/

namespace ShaderPipeline.Vertex.Builder

/-- Calls that a builder turns down: declarations that are out of place, whose names are taken, or
for which there is no room. -/
inductive Rejects (builder : Builder) : Operation → Prop
  | inGroup {name : String} {format : Format} (packing : builder.isPacking = true) :
      Rejects builder (.add name format)
  | declared {name : String} {format : Format} (taken : builder.isDeclared name = true) :
      Rejects builder (.add name format)
  | zeroWidth {name : String} {scalar : Scalar} {count : Nat} :
      Rejects builder (.addPackedField name scalar count 0)
  | outside {name : String} {scalar : Scalar} {count bits : Nat}
      (shut : builder.group? = none) : Rejects builder (.addPackedField name scalar count bits)
  | fieldDeclared {name : String} {scalar : Scalar} {count bits : Nat}
      (taken : builder.isDeclared name = true) :
      Rejects builder (.addPackedField name scalar count bits)
  | repeated {group : PackedGroup} {name : String} {scalar : Scalar} {count bits : Nat}
      (opened : builder.group? = some group) (taken : (group.field? name).isSome = true) :
      Rejects builder (.addPackedField name scalar count bits)
  | overfull {group : PackedGroup} {name : String} {scalar : Scalar} {count bits : Nat}
      (opened : builder.group? = some group) (large : group.availableBits < bits * count) :
      Rejects builder (.addPackedField name scalar count bits)

/-- The builder after a call. -/
inductive Does (builder : Builder) : Operation → Builder → Prop
  | rejected {operation : Operation} (rejects : builder.Rejects operation) :
      Does builder operation builder
  | added {name : String} {format : Format} (shut : builder.group? = none)
      (free : builder.isDeclared name = false) :
      Does builder (.add name format) (builder.place name format none [(name, .plain)])
  | opened (name? : Option String) :
      Does builder (.beginPacked name?)
        { builder with
          group? := some (.empty (name?.getD s!"packed{builder.groupsStarted}"))
          groupsStarted := builder.groupsStarted + 1 }
  | extended {group : PackedGroup} {name : String} {scalar : Scalar} {count bits : Nat}
      (opened : builder.group? = some group) (wide : bits ≠ 0)
      (free : builder.isDeclared name = false) (fresh : group.field? name = none)
      (fits : bits * count ≤ group.availableBits) :
      Does builder (.addPackedField name scalar count bits)
        { builder with group? := some (group.append name scalar count bits) }
  | closed {group : PackedGroup} (opened : builder.group? = some group)
      (filled : group.fields ≠ []) :
      Does builder .endPacked
        ({ builder with group? := none }.place group.name .word (some group)
          (group.fields.map fun field : PackedField => (field.name, .packed field)))
  | dropped {operation : Operation} (drops : operation = .endPacked ∨ operation = .discardPacked) :
      Does builder operation { builder with group? := none }

private theorem does_addPackedField (builder : Builder) (name : String) (scalar : Scalar)
    (count bits : Nat) :
    builder.Does (.addPackedField name scalar count bits)
      (builder.step (.addPackedField name scalar count bits)) := by
  rw [step, value_addPackedField]
  by_cases zero : bits = 0
  · subst zero
    exact .rejected .zeroWidth
  · rw [if_neg zero]
    cases opened : builder.group? with
    | none => exact .rejected (.outside opened)
    | some group =>
      dsimp only
      cases declared : builder.isDeclared name with
      | true => exact .rejected (.fieldDeclared declared)
      | false =>
        cases taken : (group.field? name).isSome with
        | true => exact .rejected (.repeated opened taken)
        | false =>
          rw [Bool.or_self, if_neg Bool.false_ne_true, PackedGroup.value_push]
          by_cases fits : bits * count ≤ group.availableBits
          · rw [if_pos fits]
            exact .extended opened zero declared (by simpa using taken) fits
          · rw [if_neg fits]
            exact .rejected (.overfull opened (Nat.lt_of_not_le fits))

/-- Every call does what it may. -/
theorem does_step (builder : Builder) (operation : Operation) :
    builder.Does operation (builder.step operation) := by
  cases operation with
  | add name format =>
    rw [step, add]
    by_cases packing : builder.isPacking = true
    · rw [if_pos packing]
      exact .rejected (.inGroup packing)
    · rw [if_neg packing]
      by_cases declared : builder.isDeclared name = true
      · rw [if_pos declared]
        exact .rejected (.declared declared)
      · rw [if_neg declared]
        exact .added (by simpa [isPacking] using packing) (by simpa using declared)
  | beginPacked name? =>
    rw [step, value_beginPacked]
    exact .opened name?
  | addPackedField name scalar count bits =>
    exact builder.does_addPackedField name scalar count bits
  | endPacked =>
    cases opened : builder.group? with
    | none =>
      have same : builder.step .endPacked = { builder with group? := none } := by
        obtain ⟨components, attributes, offset, group?, groupsStarted⟩ := builder
        obtain rfl : group? = none := opened
        rfl
      rw [same]
      exact .dropped (.inl rfl)
    | some group =>
      by_cases filled : group.fields = []
      · have same : builder.step .endPacked = { builder with group? := none } := by
          simp [step, endPacked, opened, filled]
        rw [same]
        exact .dropped (.inl rfl)
      · rw [step, value_endPacked opened filled]
        exact .closed opened filled
  | discardPacked => exact .dropped (.inr rfl)

end ShaderPipeline.Vertex.Builder
