import ShaderPipeline.Proofs.Text.Words
import ShaderPipeline.Proofs.Vertex.Operations
import ShaderPipeline.Vertex.Section

/-! What a layout section asks of its builder. Whatever the lines are, they come to calls that are
checked, so what checked calls keep holds of the builder at every line. -/

namespace ShaderPipeline.Vertex

/-- Formats that a section can declare. -/
structure Format.Proper (format : Format) : Prop where
  count : 1 ≤ format.count ∧ format.count ≤ 4
  integer : format.normalized = true → format.scalar.isInteger = true

/-- Fields that a section can declare. -/
structure PackedField.Proper (field : PackedField) : Prop where
  identifier : Text.isIdentifier field.name.toList = true
  integer : field.scalar.isInteger = true
  count : 1 ≤ field.count ∧ field.count ≤ 4
  bits : 1 ≤ field.bits ∧ field.bits ≤ field.scalar.bits

/-- A call as a section makes it. The width of a field is checked against its type where the field
fits into the group; any other field is left to the group. -/
def Operation.Proper (builder : Builder) : Operation → Prop
  | .add name format => Text.isIdentifier name.toList = true ∧ format.Proper
  | .addPackedField name scalar count bits =>
    ∀ group, builder.group? = some group → bits * count ≤ group.availableBits →
      PackedField.Proper ⟨name, scalar, count, bits, group.usedBits⟩
  | .beginPacked _ | .endPacked | .discardPacked => True

/-- A property of builders that calls of a section keep. -/
structure Builder.Keeps (Kept : Builder → Prop) : Prop where
  step : ∀ (builder : Builder) (operation : Operation), Kept builder → operation.Proper builder →
    Kept (builder.step operation)

theorem BasicType.count_of_ofName? {name : String} {basic : BasicType}
    (read : ofName? name = some basic) : 1 ≤ basic.count ∧ basic.count ≤ 4 := by
  unfold ofName? at read
  split at read
  · cases read
    exact ⟨Nat.le_refl 1, Nat.le_add_left 1 3⟩
  · split at read <;> cases read <;> decide

namespace Reader

/-- The name in the head of a packed group. -/
def groupName? (head : Text) : Option String :=
  match Text.words head with
  | [name] => if Text.isIdentifier name then some name.string else none
  | _ => none

variable (reader : Reader) (line : Nat)

/-- What the words of a declaration outside all groups come to. -/
def unpacked : List Text → Reader
  | [] => reader
  | first :: rest =>
    if first.head? = some '\x7d' then reader
    else if first = "normalized".toList then (reader.normalized line rest).value
    else (reader.plain line (first :: rest)).value

/-! ### Answers without their warnings -/

theorem value_groupBody (body : Text) :
    (reader.groupBody line body).run.value =
      let closing? := Text.splitAt? '\x7d' body
      let tokens := Text.words ((closing?.map Prod.fst).getD body)
      if tokens.any interrupts then
        .ok { reader with
          builder := reader.builder.discardPacked
          skipping := closing?.isNone }
      else (reader.fields line tokens).run.value.map fun read =>
        if closing?.isSome then { read with builder := read.builder.step .endPacked } else read := by
  rw [groupBody]
  cases Text.splitAt? '\x7d' body with
  | none =>
    simp only [Option.map_none, Option.getD_none, Option.isNone_none, Option.isSome_none,
      Bool.false_eq_true, ↓reduceIte, bind_pure, Logged.value_run_ite]
    cases (reader.fields line (Text.words body)).run.value <;> rfl
  | some parts =>
    simp only [Option.map_some, Option.getD_some, Option.isNone_some, Option.isSome_some,
      ↓reduceIte, Logged.value_run_ite, Logged.value_run_bind, Logged.value_run_liftM,
      Logged.value_run_pure, ite_self]
    cases (reader.fields line (Text.words parts.1)).run.value <;> rfl

/-- A group's body is read up to its closing brace. -/
theorem exists_inner (body : Text) :
    ∃ inner trail, body = inner ++ trail ∧
      ((Text.splitAt? '\x7d' body).map Prod.fst).getD body = inner ∧ '\x7d' ∉ inner ∧
        ∀ c ∈ trail.head?, c = '\x7d' := by
  cases closing : Text.splitAt? '\x7d' body with
  | none => exact ⟨body, [], by simp, rfl, Text.splitAt?_eq_none_iff.mp closing, by simp⟩
  | some parts =>
    obtain ⟨inner, after⟩ := parts
    obtain ⟨whole, absent⟩ := Text.splitAt?_eq_some closing
    exact ⟨inner, '\x7d' :: after, whole, rfl, absent, by simp⟩

theorem value_header (after : Text) :
    (reader.header line after).run.value =
      let body? := Text.splitAt? '\x7b' after
      let name? := groupName? ((body?.map Prod.fst).getD after)
      match body? with
      | some (_, body) => ((reader.openGroup name? line).value.groupBody line body).run.value
      | none => .ok { reader with pending? := some ⟨name?, line⟩ } := by
  rw [header]
  dsimp only
  rw [groupName?]
  rcases Text.words _ with _ | ⟨name, _ | ⟨second, rest⟩⟩
  · cases Text.splitAt? '\x7b' after <;> rfl
  · dsimp only
    cases Text.isIdentifier name <;> cases Text.splitAt? '\x7b' after <;> rfl
  · cases Text.splitAt? '\x7b' after <;> rfl

/-- A field is passed over, or passed on to the builder after its checks. -/
theorem field_cases (type name width : Text) :
    (reader.field line type name width).run.value = .ok reader ∨
      ∃ basic bits, BasicType.ofName? type.string = some basic ∧ basic.isPackable = true ∧
        Text.isIdentifier name = true ∧ Text.decimal? width = some bits ∧ bits ≠ 0 ∧
        (∀ group, reader.builder.group? = some group → bits * basic.count ≤ group.availableBits →
          bits ≤ basic.scalar.bits) ∧
        (reader.field line type name width).run.value =
          (reader.builder.addPackedField name.string basic.scalar basic.count bits).run.value.map
            fun builder => { reader with builder } := by
  rw [field]
  cases read : (BasicType.ofName? type.string).filter BasicType.isPackable with
  | none => exact .inl rfl
  | some basic =>
    obtain ⟨found, packable⟩ := Option.filter_eq_some_iff.mp read
    cases named : Text.isIdentifier name with
    | false => exact .inl rfl
    | true =>
      cases number : Text.decimal? width with
      | none => exact .inl rfl
      | some bits =>
        by_cases zero : bits = 0
        · subst zero
          exact .inl rfl
        · by_cases wide : (reader.builder.availableBits?.any
              (PackedGroup.requestedBits basic.count bits ≤ ·) &&
                decide (bits > basic.scalar.bits)) = true
          · left
            simp only [Bool.not_true, Bool.false_eq_true, ↓reduceIte, zero, wide]
            rfl
          · right
            refine ⟨basic, bits, found, packable, rfl, rfl, zero, ?_, ?_⟩
            · intro group opened fits
              have room : PackedGroup.requestedBits basic.count bits ≤ group.availableBits :=
                (PackedGroup.requestedBits_le_iff basic.count bits (Nat.sub_le _ _)).mpr fits
              apply Nat.le_of_not_lt
              intro larger
              exact wide (by simp [Builder.availableBits?, opened, room, larger])
            · simp only [Bool.not_true, Bool.false_eq_true, ↓reduceIte, zero, wide]
              rw [Logged.value_run_bind]
              cases (reader.builder.addPackedField _ _ _ _).run.value <;> rfl

/-- What follows the word `packed` is apart from it. -/
theorem afterPacked?_eq_some_iff {text after : Text} :
    afterPacked? text = some after ↔ text = "packed".toList ++ after ∧
      ∀ c ∈ after.head?, Text.isBlank c = true ∨ c = '\x7b' := by
  rw [afterPacked?, Option.filter_eq_some_iff, Text.dropStart?_eq_some_iff]
  cases after <;> simp

theorem value_declaration (text : Text) :
    (reader.declaration line text).run.value =
      match afterPacked? text with
      | some after => (reader.header line after).run.value
      | none => .ok (reader.unpacked line (Text.words text)) := by
  rw [declaration]
  cases afterPacked? text with
  | some after => rfl
  | none =>
    cases Text.words text with
    | nil => rfl
    | cons first rest =>
      dsimp only [unpacked]
      rw [Logged.value_run_ite, Logged.value_run_ite]
      split
      · rfl
      · split <;> rfl

theorem value_content (text : Text) :
    (reader.content line text).run.value =
      match reader.pending? with
      | none => (reader.statement line text).run.value
      | some pending =>
        let reader := { reader with pending? := none }
        match Text.dropStart? ['\x7b'] text with
        | some body =>
          ((reader.openGroup pending.name? pending.line).value.groupBody line body).run.value
        | none => (reader.statement line text).run.value := by
  rw [content]
  cases reader.pending? with
  | none => rfl
  | some pending =>
    dsimp only
    cases Text.dropStart? ['\x7b'] text <;> rfl

theorem value_statement_nil :
    (reader.statement line []).run.value = .ok reader := by
  rw [statement]
  split <;> rfl

/-- Reads on behind the closing brace that a skipping reader waits for. -/
def resume (text : Text) : Attempt Reader :=
  match Text.splitAt? '\x7d' text with
  | none => return reader
  | some (_, after) =>
    if (Text.trim after).isEmpty then return { reader with skipping := false }
    else content { reader with skipping := false } line (Text.trim after)

theorem line_eq (text : Text) :
    reader.line line text =
      if reader.skipping then reader.resume line (Text.trim text)
      else reader.content line (Text.trim text) := rfl

end Reader

/-! ### Kept properties -/

namespace Builder.Keeps

variable {Kept : Builder → Prop} (keeps : Keeps Kept) {reader : Reader}
include keeps

theorem openGroup (kept : Kept reader.builder) (name? : Option String) (line : Nat) :
    Kept (reader.openGroup name? line).value.builder :=
  keeps.step reader.builder (.beginPacked name?) kept trivial

theorem declare (kept : Kept reader.builder) (line : Nat) (type name : Text)
    (backing? : Option Text) : Kept (reader.declare line type name backing?).value.builder := by
  rw [Reader.declare]
  cases read : BasicType.ofName? type.string with
  | none => exact kept
  | some basic =>
    cases named : Text.isIdentifier name with
    | false => exact kept
    | true =>
      let format : Format := ⟨(Reader.storage line type name basic.scalar backing?).value,
        basic.count, false⟩
      refine keeps.step reader.builder (.add name.string format) kept ⟨?_, ?_⟩
      · simpa [Text.string] using named
      · exact ⟨BasicType.count_of_ofName? read, by simp [format]⟩

theorem plain (kept : Kept reader.builder) (line : Nat) (tokens : List Text) :
    Kept (reader.plain line tokens).value.builder := by
  unfold Reader.plain
  split
  next type name => exact keeps.declare kept line type name none
  next type name backing => exact keeps.declare kept line type name (some backing)
  next => exact kept

theorem normalized (kept : Kept reader.builder) (line : Nat) (tokens : List Text) :
    Kept (reader.normalized line tokens).value.builder := by
  unfold Reader.normalized
  split
  next type name backing =>
    cases read : BasicType.ofName? type.string with
    | none => exact kept
    | some basic =>
      cases named : Text.isIdentifier name with
      | false => exact kept
      | true =>
        cases stored : (Scalar.ofName? backing.string).filter Scalar.isInteger with
        | none => exact kept
        | some scalar =>
          have integer := (Option.filter_eq_some_iff.mp stored).2
          have added : Kept (reader.builder.step (.add name.string ⟨scalar, basic.count, true⟩)) := by
            refine keeps.step reader.builder _ kept ⟨?_, ?_⟩
            · simpa [Text.string] using named
            · exact ⟨BasicType.count_of_ofName? read, fun _ => integer⟩
          dsimp only [↓reduceIte]
          cases basic.scalar.isInteger <;> exact added
  next => exact kept

theorem unpacked (kept : Kept reader.builder) (line : Nat) (tokens : List Text) :
    Kept (reader.unpacked line tokens).builder := by
  cases tokens with
  | nil => exact kept
  | cons first rest =>
    rw [Reader.unpacked]
    split
    · exact kept
    · split
      · exact keeps.normalized kept line rest
      · exact keeps.plain kept line (first :: rest)

variable {next : Reader}

theorem field (kept : Kept reader.builder) {line : Nat} {type name width : Text}
    (read : (reader.field line type name width).run.value = .ok next) : Kept next.builder := by
  rcases reader.field_cases line type name width with
    same | ⟨basic, bits, found, packable, named, -, positive, narrow, passed⟩
  · rw [same] at read
    cases read
    exact kept
  · rw [passed] at read
    cases added : (reader.builder.addPackedField name.string basic.scalar basic.count bits).run.value
    with
    | error fault => rw [added] at read; cases read
    | ok builder =>
      rw [added] at read
      cases read
      have proper : Operation.Proper reader.builder
          (.addPackedField name.string basic.scalar basic.count bits) := by
        intro group opened fits
        refine ⟨?_, packable, BasicType.count_of_ofName? found, ?_, narrow group opened fits⟩
        · simpa [Text.string] using named
        · exact Nat.one_le_iff_ne_zero.mpr positive
      have stepped := keeps.step reader.builder _ kept proper
      rw [Builder.step, added] at stepped
      exact stepped

theorem fields {line : Nat} :
    ∀ {reader : Reader} (tokens : List Text), Kept reader.builder →
    (reader.fields line tokens).run.value = .ok next → Kept next.builder
  | reader, type :: name :: width :: rest, kept, read => by
    rw [Reader.fields] at read
    obtain ⟨middle, first, others⟩ := Logged.of_bind_ok read
    exact fields rest (keeps.field kept first) others
  | _, [], kept, read | _, [_], kept, read | _, [_, _], kept, read => by
    cases read
    exact kept

theorem groupBody (kept : Kept reader.builder) {line : Nat} {body : Text}
    (read : (reader.groupBody line body).run.value = .ok next) : Kept next.builder := by
  rw [Reader.value_groupBody] at read
  dsimp only at read
  split at read
  · cases read
    exact keeps.step reader.builder .discardPacked kept trivial
  · cases inner : (reader.fields line (Text.words
      (((Text.splitAt? '\x7d' body).map Prod.fst).getD body))).run.value with
    | error fault => rw [inner] at read; cases read
    | ok last =>
      rw [inner] at read
      have held := keeps.fields _ kept inner
      cases read
      split
      · exact keeps.step last.builder .endPacked held trivial
      · exact held

theorem header (kept : Kept reader.builder) {line : Nat} {after : Text}
    (read : (reader.header line after).run.value = .ok next) : Kept next.builder := by
  rw [Reader.value_header] at read
  dsimp only at read
  split at read
  · exact keeps.groupBody (keeps.openGroup kept _ line) read
  · cases read
    exact kept

theorem declaration (kept : Kept reader.builder) {line : Nat} {text : Text}
    (read : (reader.declaration line text).run.value = .ok next) : Kept next.builder := by
  rw [Reader.value_declaration] at read
  split at read
  · exact keeps.header kept read
  · cases read
    exact keeps.unpacked kept line _

theorem statement (kept : Kept reader.builder) {line : Nat} {text : Text}
    (read : (reader.statement line text).run.value = .ok next) : Kept next.builder := by
  rw [Reader.statement] at read
  split at read
  · exact keeps.groupBody kept read
  · exact keeps.declaration kept read

theorem content (kept : Kept reader.builder) {line : Nat} {text : Text}
    (read : (reader.content line text).run.value = .ok next) : Kept next.builder := by
  rw [Reader.value_content] at read
  split at read
  · exact keeps.statement kept read
  next pending _ =>
    have taken : Kept { reader with pending? := none }.builder := kept
    dsimp only at read
    split at read
    · exact keeps.groupBody (keeps.openGroup taken pending.name? pending.line) read
    · exact keeps.statement taken read

theorem resume (kept : Kept reader.builder) {line : Nat} {text : Text}
    (read : (reader.resume line text).run.value = .ok next) : Kept next.builder := by
  rw [Reader.resume] at read
  split at read
  · cases read
    exact kept
  · have resumed : Kept { reader with skipping := false }.builder := kept
    split at read
    · cases read
      exact resumed
    · exact keeps.content resumed read

theorem line (kept : Kept reader.builder) {number : Nat} {text : Text}
    (read : (reader.line number text).run.value = .ok next) : Kept next.builder := by
  rw [Reader.line_eq] at read
  split at read
  · exact keeps.resume kept read
  · exact keeps.content kept read

theorem lines (kept : Kept reader.builder) {number : Nat} {texts : List Text}
    (read : (reader.lines number texts).run.value = .ok next) : Kept next.builder := by
  induction texts generalizing reader number with
  | nil =>
    cases read
    exact kept
  | cons first rest ih =>
    rw [Reader.lines] at read
    obtain ⟨middle, one, others⟩ := Logged.of_bind_ok read
    exact ih (keeps.line kept one) others

end Builder.Keeps

theorem Builder.keeps_wellFormed : Keeps WellFormed :=
  ⟨fun _ operation valid _ => valid.step operation⟩

end ShaderPipeline.Vertex
