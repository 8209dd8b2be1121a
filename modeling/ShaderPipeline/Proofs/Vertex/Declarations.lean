import ShaderPipeline.Proofs.Text.Numerals
import ShaderPipeline.Proofs.Text.Spread
import ShaderPipeline.Proofs.Vertex.Operations
import ShaderPipeline.Vertex.Section

/-! Declarations of a vertex layout as data: the calls on a builder that they stand for, and the
ways in which a layout section can write them. -/

namespace ShaderPipeline.Vertex

/-- A field of a packed group. -/
structure FieldDeclaration where
  type : BasicType
  name : String
  width : Nat
  deriving DecidableEq, Repr

/-- Fields that a section can declare. The words that begin other declarations cannot name them. -/
structure FieldDeclaration.Proper (field : FieldDeclaration) : Prop where
  packable : field.type.isPackable = true
  identifier : Text.isIdentifier field.name.toList = true
  free : field.name ≠ "packed" ∧ field.name ≠ "normalized"
  width : 1 ≤ field.width ∧ field.width ≤ field.type.scalar.bits

theorem FieldDeclaration.proper_iff {field : FieldDeclaration} :
    field.Proper ↔ field.type.isPackable = true ∧ Text.isIdentifier field.name.toList = true ∧
      (field.name ≠ "packed" ∧ field.name ≠ "normalized") ∧
      1 ≤ field.width ∧ field.width ≤ field.type.scalar.bits :=
  ⟨fun ⟨packable, identifier, free, width⟩ => ⟨packable, identifier, free, width⟩,
    fun ⟨packable, identifier, free, width⟩ => ⟨packable, identifier, free, width⟩⟩

instance (field : FieldDeclaration) : Decidable field.Proper :=
  decidable_of_iff _ FieldDeclaration.proper_iff.symm

inductive Declaration where
  | plain (type : BasicType) (name : String) (backing? : Option Scalar)
  | normalized (type : BasicType) (name : String) (backing : Scalar)
  | packed (name? : Option String) (fields : List FieldDeclaration)
  deriving DecidableEq, Repr

namespace Declaration

/-- Declarations that a section can make. Their names may be taken and their groups too full. -/
def Proper : Declaration → Prop
  | .plain _ name _ => Text.isIdentifier name.toList = true
  | .normalized _ name backing =>
    Text.isIdentifier name.toList = true ∧ backing.isInteger = true
  | .packed name? fields =>
    (∀ name ∈ name?, Text.isIdentifier name.toList = true) ∧ ∀ field ∈ fields, field.Proper

instance : DecidablePred Proper
  | .plain _ name _ => inferInstanceAs (Decidable (Text.isIdentifier name.toList = true))
  | .normalized _ name backing =>
    inferInstanceAs (Decidable (Text.isIdentifier name.toList = true ∧ backing.isInteger = true))
  | .packed name? fields =>
    inferInstanceAs (Decidable ((∀ name ∈ name?, Text.isIdentifier name.toList = true) ∧
      ∀ field ∈ fields, field.Proper))

end Declaration

/-! ### Calls -/

/-- The storage of a plain attribute. A backing type counts where both are integers or both are
floats. -/
def BasicType.storage (type : BasicType) : (backing? : Option Scalar) → Scalar
  | none => type.scalar
  | some backing => if backing.isInteger = type.scalar.isInteger then backing else type.scalar

def FieldDeclaration.call (field : FieldDeclaration) : Operation :=
  .addPackedField field.name field.type.scalar field.type.count field.width

namespace Declaration

/-- The calls on a builder that a declaration stands for. -/
def calls : Declaration → List Operation
  | .plain type name backing? => [.add name ⟨type.storage backing?, type.count, false⟩]
  | .normalized type name backing => [.add name ⟨backing, type.count, true⟩]
  | .packed name? fields =>
    .beginPacked name? :: (fields.map FieldDeclaration.call ++ [.endPacked])

end Declaration

namespace Builder

/-- The builder after a call, or the fault of a field that does not fit. -/
def call (builder : Builder) : Operation → Except Fault Builder
  | .addPackedField name scalar count bits =>
    (builder.addPackedField name scalar count bits).run.value
  | operation => .ok (builder.step operation)

/-- The builder after calls in order, the first fault of which ends them. -/
def calls (builder : Builder) : List Operation → Except Fault Builder
  | [] => .ok builder
  | operation :: rest => do (← builder.call operation).calls rest

theorem calls_append (builder : Builder) (first second : List Operation) :
    builder.calls (first ++ second) = builder.calls first >>= (·.calls second) := by
  induction first generalizing builder with
  | nil => rfl
  | cons operation rest ih =>
    rw [List.cons_append, calls, calls]
    cases builder.call operation with
    | error fault => rfl
    | ok next => exact ih next

/-- A call that does not fail makes a step. -/
theorem step_of_call {builder next : Builder} {operation : Operation}
    (called : builder.call operation = .ok next) : builder.step operation = next := by
  cases operation with
  | addPackedField name scalar count bits =>
    have made : (builder.addPackedField name scalar count bits).run.value = .ok next := called
    rw [step, made]
  | _ => exact Except.ok.inj called

theorem isPacking_beginPacked (builder : Builder) (name? : Option String) :
    (builder.step (.beginPacked name?)).isPacking = true := by
  rw [step, value_beginPacked]
  rfl

theorem isPacking_endPacked (builder : Builder) : (builder.step .endPacked).isPacking = false := by
  cases opened : builder.group? with
  | none => simp [step, endPacked, isPacking, opened]
  | some group =>
    by_cases filled : group.fields = []
    · simp [step, endPacked, isPacking, opened, filled]
    · rw [step, value_endPacked opened filled]
      rfl

theorem isPacking_add {builder : Builder} (shut : builder.isPacking = false) (name : String)
    (format : Format) : (builder.step (.add name format)).isPacking = false := by
  rw [step, add, shut, if_neg Bool.false_ne_true]
  split <;> exact shut

/-- Fields leave the group open. -/
theorem isPacking_calls {builder next : Builder} {fields : List FieldDeclaration}
    (packing : builder.isPacking = true)
    (called : builder.calls (fields.map FieldDeclaration.call) = .ok next) :
    next.isPacking = true := by
  induction fields generalizing builder with
  | nil =>
    cases called
    exact packing
  | cons field rest ih =>
    rw [List.map_cons, calls] at called
    cases first : builder.call field.call with
    | error fault =>
      rw [first] at called
      cases called
    | ok middle =>
      rw [first] at called
      refine ih ?_ called
      rw [← step_of_call first, FieldDeclaration.call]
      rcases step_addPackedField builder field.name field.type.scalar field.type.count
        field.width with same | ⟨group, -, -, -, -, same⟩
      · rwa [same]
      · rw [same]
        rfl

theorem isPacking_calls_endPacked {builder next : Builder} {operations : List Operation}
    (called : builder.calls (operations ++ [.endPacked]) = .ok next) :
    next.isPacking = false := by
  rw [calls_append] at called
  cases before : builder.calls operations with
  | error fault =>
    rw [before] at called
    cases called
  | ok last =>
    rw [before] at called
    obtain rfl := Except.ok.inj called
    exact isPacking_endPacked last

end Builder

/-- The layout of declarations, if it has attributes, by calls on a new builder. -/
def Layout.declared (declarations : List Declaration) : Except Fault (Option Layout) :=
  (Builder.empty.calls (declarations.flatMap Declaration.calls)).map fun builder =>
    let layout := builder.build.value
    if layout.isEmpty then none else some layout

/-! ### Writing -/

/-- The words of fields, three each. -/
inductive FieldsWords : List FieldDeclaration → List Text → Prop
  | nil : FieldsWords [] []
  | cons {field : FieldDeclaration} {fields : List FieldDeclaration} {type width : Text}
      {words : List Text} (typed : BasicType.ofName? type.string = some field.type)
      (sized : Text.decimal? width = some field.width) (others : FieldsWords fields words) :
      FieldsWords (field :: fields) (type :: field.name.toList :: width :: words)

/-- The fields of a group and its closing brace, from the words of some line on. Each line has any
number of whole fields, and the brace ends the last line. -/
inductive Body : List FieldDeclaration → (words : List Text) → (lines : List Text) → Prop
  | close {fields : List FieldDeclaration} {words : List Text} (here : FieldsWords fields words) :
      Body fields (words ++ [['\x7d']]) []
  | more {fields others : List FieldDeclaration} {words rest : List Text} {line : Text}
      {lines : List Text} (here : FieldsWords fields words) (spread : Text.Spread rest line)
      (later : Body others rest lines) : Body (fields ++ others) words (line :: lines)

/-- The words of the header of a packed group. -/
def headerWords (name? : Option String) : List Text :=
  "packed".toList :: name?.toList.map String.toList

/-- The lines of a declaration. The brace that opens a group ends the header or begins the next
line. -/
inductive Declaration.Lines : Declaration → List Text → Prop
  | plain {basic : BasicType} {name : String} {type line : Text}
      (typed : BasicType.ofName? type.string = some basic)
      (spread : Text.Spread [type, name.toList] line) : Lines (.plain basic name none) [line]
  | backed {basic : BasicType} {name : String} {scalar : Scalar} {type backing line : Text}
      (typed : BasicType.ofName? type.string = some basic)
      (stored : Scalar.ofName? backing.string = some scalar)
      (spread : Text.Spread [type, name.toList, backing] line) :
      Lines (.plain basic name (some scalar)) [line]
  | normalized {basic : BasicType} {name : String} {scalar : Scalar} {type backing line : Text}
      (typed : BasicType.ofName? type.string = some basic)
      (stored : Scalar.ofName? backing.string = some scalar)
      (spread : Text.Spread ["normalized".toList, type, name.toList, backing] line) :
      Lines (.normalized basic name scalar) [line]
  | sameLine {name? : Option String} {fields : List FieldDeclaration} {rest : List Text}
      {line : Text} {lines : List Text}
      (spread : Text.Spread (headerWords name? ++ ['\x7b'] :: rest) line)
      (body : Body fields rest lines) : Lines (.packed name? fields) (line :: lines)
  | nextLine {name? : Option String} {fields : List FieldDeclaration} {rest : List Text}
      {header line : Text} {lines : List Text} (head : Text.Spread (headerWords name?) header)
      (spread : Text.Spread (['\x7b'] :: rest) line) (body : Body fields rest lines) :
      Lines (.packed name? fields) (header :: line :: lines)

/-- The lines of declarations in order, with blank lines between them. -/
inductive SectionLines : List Declaration → List Text → Prop
  | nil : SectionLines [] []
  | blank {declarations : List Declaration} {line : Text} {lines : List Text}
      (spread : Text.Spread [] line) (others : SectionLines declarations lines) :
      SectionLines declarations (line :: lines)
  | cons {declaration : Declaration} {declarations : List Declaration} {own lines : List Text}
      (here : declaration.Lines own) (others : SectionLines declarations lines) :
      SectionLines (declaration :: declarations) (own ++ lines)

/-- A text that writes the declarations. -/
def Written (declarations : List Declaration) (text : Text) : Prop :=
  ∃ lines, SectionLines declarations lines ∧ (∀ line ∈ lines, '\n' ∉ line) ∧
    text = Text.joinLines lines

/-! ### The words of declarations -/

/-- The words of basic types. -/
def BasicType.names : List String :=
  ["byte", "short", "int", "float", "vec2", "vec3", "vec4", "ivec2", "ivec3", "ivec4"]

theorem BasicType.mem_names {name : String} {basic : BasicType}
    (read : ofName? name = some basic) : name ∈ names := by
  unfold ofName? at read
  split at read
  next scalar found =>
    unfold Scalar.ofName? at found
    split at found <;> first | decide | cases found
  next => split at read <;> first | decide | cases read

/-- A word that can stand inside a group. -/
structure Inner (word : Text) : Prop where
  stays : Reader.interrupts word = false
  unclosed : '\x7d' ∉ word

private theorem inner_iff {word : Text} :
    Inner word ↔ word ≠ "packed".toList ∧ word ≠ "normalized".toList ∧ '\x7b' ∉ word ∧
      '\x7d' ∉ word := by
  constructor
  · rintro ⟨stays, unclosed⟩
    simp only [Reader.interrupts, Bool.or_eq_false_iff, beq_eq_false_iff_ne, List.contains_eq_mem,
      decide_eq_false_iff_not] at stays
    exact ⟨stays.1.1, stays.1.2, stays.2, unclosed⟩
  · rintro ⟨packed, normalized, opens, unclosed⟩
    refine ⟨?_, unclosed⟩
    simp only [Reader.interrupts, Bool.or_eq_false_iff, beq_eq_false_iff_ne, List.contains_eq_mem,
      decide_eq_false_iff_not]
    exact ⟨⟨packed, normalized⟩, opens⟩

private theorem inner_of_ofName? {type : Text} {basic : BasicType}
    (typed : BasicType.ofName? type.string = some basic) : Inner type := by
  have all : ∀ name ∈ BasicType.names, name.toList ≠ "packed".toList ∧
      name.toList ≠ "normalized".toList ∧ '\x7b' ∉ name.toList ∧ '\x7d' ∉ name.toList := by
    decide
  have own := all _ (BasicType.mem_names typed)
  rw [Text.string, String.toList_ofList] at own
  exact inner_iff.mpr own

/-- What begins the word of a basic type begins no other word of a section. -/
theorem head?_of_ofName? {type : Text} {basic : BasicType}
    (typed : BasicType.ofName? type.string = some basic) :
    type.head? ≠ some 'p' ∧ type.head? ≠ some 'n' ∧ type.head? ≠ some '\x7d' := by
  have all : ∀ name ∈ BasicType.names, name.toList.head? ≠ some 'p' ∧
      name.toList.head? ≠ some 'n' ∧ name.toList.head? ≠ some '\x7d' := by
    decide
  have own := all _ (BasicType.mem_names typed)
  rwa [Text.string, String.toList_ofList] at own

private theorem inner_of_decimal? {width : Text} {number : Nat}
    (sized : Text.decimal? width = some number) : Inner width := by
  have digits := Text.of_mem_decimal sized
  have letter {c : Char} (member : c ∈ width) (sign : c ≠ '+')
      (other : (Text.digitValue? 10 c).isSome = false) : False := by
    rcases digits c member with plus | digit
    · exact sign plus
    · rw [digit] at other
      cases other
  refine inner_iff.mpr ⟨?_, ?_, fun member => ?_, fun member => ?_⟩
  · rintro rfl
    exact letter (c := 'p') (by decide) (by decide) (by decide)
  · rintro rfl
    exact letter (c := 'n') (by decide) (by decide) (by decide)
  · exact letter member (by decide) (by decide)
  · exact letter member (by decide) (by decide)

theorem FieldDeclaration.Proper.inner {field : FieldDeclaration} (proper : field.Proper) :
    Inner field.name.toList := by
  have letters := Text.isWordChar_of_mem proper.identifier
  refine inner_iff.mpr ⟨fun same => ?_, fun same => ?_, fun member => ?_, fun member => ?_⟩
  · exact proper.free.1 (String.toList_injective same)
  · exact proper.free.2 (String.toList_injective same)
  · cases letters _ member
  · cases letters _ member

theorem FieldsWords.inner {fields : List FieldDeclaration} {words : List Text}
    (written : FieldsWords fields words) (proper : ∀ field ∈ fields, field.Proper) :
    ∀ word ∈ words, Inner word := by
  induction written with
  | nil => exact fun word absent => nomatch absent
  | cons typed sized others ih =>
    obtain ⟨own, more⟩ := List.forall_mem_cons.mp proper
    simp only [List.forall_mem_cons]
    exact ⟨inner_of_ofName? typed, own.inner, inner_of_decimal? sized, ih more⟩

/-- Fields do not interrupt their group. -/
theorem FieldsWords.stays {fields : List FieldDeclaration} {words : List Text}
    (written : FieldsWords fields words) (proper : ∀ field ∈ fields, field.Proper) :
    words.any Reader.interrupts = false :=
  List.any_eq_false.mpr fun word member => by simp [(written.inner proper word member).stays]

end ShaderPipeline.Vertex
