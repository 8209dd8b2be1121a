import ShaderPipeline.Proofs.Text.Stripping
import ShaderPipeline.Proofs.Vertex.Declarations
import ShaderPipeline.Proofs.Vertex.SectionLayouts

/-! Reading what has been written. However declarations are written in a layout section, reading
the section makes their calls on the builder, one declaration after the other, and ends at the call
that fails. -/

namespace ShaderPipeline.Vertex

/-! ### A reader beside a builder -/

/-- Reading comes to what calls come to: to their builder, in a reader with the property, or to
their fault. -/
structure Follows (Holds : Reader → Prop) (read : Except Fault Reader)
    (made : Except Fault Builder) : Prop where
  same : read.map Reader.builder = made
  holds : ∀ reader, read = .ok reader → Holds reader

namespace Follows

variable {Holds Later : Reader → Prop} {read : Except Fault Reader} {made : Except Fault Builder}

theorem ok {reader : Reader} (holds : Holds reader) :
    Follows Holds (.ok reader) (.ok reader.builder) :=
  ⟨rfl, fun _ same => Except.ok.inj same ▸ holds⟩

theorem error {fault : Fault} : Follows Holds (.error fault) (.error fault) :=
  ⟨rfl, fun _ failed => nomatch failed⟩

theorem bind (first : Follows Holds read made) {next : Reader → Except Fault Reader}
    {call : Builder → Except Fault Builder}
    (follows : ∀ reader, Holds reader → Follows Later (next reader) (call reader.builder)) :
    Follows Later (read >>= next) (made >>= call) := by
  obtain ⟨rfl, holds⟩ := first
  cases read with
  | error fault => exact .error
  | ok reader => exact follows reader (holds reader rfl)

end Follows

namespace Reader

/-- Nothing is skipped, and no header waits for its brace. -/
structure Reads (reader : Reader) : Prop where
  reading : reader.skipping = false
  headed : reader.pending? = none

/-- The reader stands between declarations. -/
structure AtRest (reader : Reader) : Prop extends reader.Reads where
  shut : reader.builder.isPacking = false

/-- The reader stands in a packed group. -/
structure Inside (reader : Reader) : Prop extends reader.Reads where
  packing : reader.builder.isPacking = true

theorem atRest_start : start.AtRest := ⟨⟨rfl, rfl⟩, rfl⟩

theorem run_lines_cons (reader : Reader) (number : Nat) (line : Text) (rest : List Text) :
    (reader.lines number (line :: rest)).run.value =
      (reader.line number line).run.value >>= fun next =>
        (next.lines (number + 1) rest).run.value := by
  rw [lines, Logged.value_run_bind]
  cases (reader.line number line).run.value <;> rfl

theorem run_lines_append (reader : Reader) (number : Nat) (first second : List Text) :
    (reader.lines number (first ++ second)).run.value =
      (reader.lines number first).run.value >>= fun next =>
        (next.lines (number + first.length) second).run.value := by
  rw [value_lines_append]
  cases (reader.lines number first).run.value <;> rfl

theorem line_of_reading {reader : Reader} (reading : reader.skipping = false) (number : Nat)
    (line : Text) : reader.line number line = reader.content number (Text.trim line) := by
  rw [line_eq, reading, if_neg Bool.false_ne_true]

theorem Inside.run_line {reader : Reader} (inside : reader.Inside) (number : Nat) (line : Text) :
    (reader.line number line).run.value =
      (reader.groupBody number (Text.trim line)).run.value := by
  rw [line_of_reading inside.reading, value_content, inside.headed]
  dsimp only
  rw [statement, if_pos inside.packing]

theorem AtRest.run_line {reader : Reader} (rest : reader.AtRest) (number : Nat) (line : Text) :
    (reader.line number line).run.value =
      (reader.declaration number (Text.trim line)).run.value := by
  rw [line_of_reading rest.reading, value_content, rest.headed]
  dsimp only
  rw [statement, rest.shut, if_neg Bool.false_ne_true]

/-- The line behind a header opens its group. -/
theorem run_pending {reader : Reader} (reading : reader.skipping = false) (pending : Pending)
    {text inner : Text} (opens : Text.trim text = ['\x7b'] ++ inner) (number : Nat) :
    (line { reader with pending? := some pending } number text).run.value =
      ((openGroup { reader with pending? := none } pending.name? pending.line).value.groupBody
        number inner).run.value := by
  have awake : skipping { reader with pending? := some pending } = false := reading
  rw [line_of_reading awake, value_content]
  dsimp only
  rw [Text.dropStart?_eq_some_iff.mpr opens]

/-! ### Groups -/

private theorem run_field {reader : Reader} {field : FieldDeclaration} (proper : field.Proper)
    {type width : Text} (typed : BasicType.ofName? type.string = some field.type)
    (sized : Text.decimal? width = some field.width) (line : Nat) :
    (reader.field line type field.name.toList width).run.value =
      (reader.builder.call field.call).map fun builder => { reader with builder } := by
  have known : (BasicType.ofName? type.string).filter BasicType.isPackable = some field.type :=
    Option.filter_eq_some_iff.mpr ⟨typed, proper.packable⟩
  have positive : field.width ≠ 0 := Nat.one_le_iff_ne_zero.mp proper.width.1
  have narrow : decide (field.width > field.type.scalar.bits) = false :=
    decide_eq_false (Nat.not_lt.mpr proper.width.2)
  rw [Reader.field, known]
  simp only [proper.identifier, sized, positive, narrow, Bool.not_true, Bool.and_false,
    Bool.false_eq_true, ↓reduceIte]
  rw [Logged.value_run_bind, Text.string, String.ofList_toList, FieldDeclaration.call, Builder.call]
  cases (reader.builder.addPackedField _ _ _ _).run.value <;> rfl

private theorem run_fields {fields : List FieldDeclaration} {words : List Text}
    (written : FieldsWords fields words) (proper : ∀ field ∈ fields, field.Proper)
    (reader : Reader) (line : Nat) :
    (reader.fields line words).run.value =
      (reader.builder.calls (fields.map FieldDeclaration.call)).map fun builder =>
        { reader with builder } := by
  induction written generalizing reader with
  | nil => rfl
  | cons typed sized others ih =>
    obtain ⟨own, more⟩ := List.forall_mem_cons.mp proper
    rw [Reader.fields, Logged.value_run_bind, run_field own typed sized, List.map_cons,
      Builder.calls]
    cases reader.builder.call _ with
    | error fault => rfl
    | ok next => exact ih more { reader with builder := next }

variable {reader : Reader} {fields : List FieldDeclaration} {words : List Text} {text : Text}

/-- A line of fields without the closing brace makes the calls for them. -/
theorem run_open (written : FieldsWords fields words) (proper : ∀ field ∈ fields, field.Proper)
    (spread : Text.words text = words) (line : Nat) :
    (reader.groupBody line text).run.value =
      (reader.builder.calls (fields.map FieldDeclaration.call)).map fun builder =>
        { reader with builder } := by
  have unclosed : Text.splitAt? '\x7d' text = none :=
    Text.splitAt?_eq_none_iff.mpr (Text.notMem_of_words rfl fun word member =>
      (written.inner proper word (spread ▸ member)).unclosed)
  rw [value_groupBody, unclosed]
  simp only [Option.map_none, Option.getD_none, Option.isSome_none, spread, written.stays proper,
    Bool.false_eq_true, ↓reduceIte, run_fields written proper]
  cases reader.builder.calls _ <;> rfl

/-- A line of fields with the closing brace behind them closes the group. -/
theorem run_close (written : FieldsWords fields words) (proper : ∀ field ∈ fields, field.Proper)
    (spread : Text.words text = words ++ [['\x7d']]) (line : Nat) :
    (reader.groupBody line text).run.value =
      (reader.builder.calls (fields.map FieldDeclaration.call ++ [.endPacked])).map fun builder =>
        { reader with builder } := by
  obtain ⟨before, after, closed, here, -⟩ := Text.splitAt?_of_words rfl spread
    fun word member => (written.inner proper word member).unclosed
  rw [value_groupBody, closed]
  simp only [Option.map_some, Option.getD_some, Option.isSome_some, here, written.stays proper,
    Bool.false_eq_true, ↓reduceIte, run_fields written proper, Builder.calls_append]
  cases reader.builder.calls _ <;> rfl

/-- From inside a group its body makes the calls for its fields and closes it. -/
theorem run_body {lines : List Text} (body : Body fields words lines)
    (proper : ∀ field ∈ fields, field.Proper) (inside : reader.Inside)
    (spread : Text.words text = words) (line next : Nat) :
    ((reader.groupBody line text).run.value >>= fun after => (after.lines next lines).run.value) =
      (reader.builder.calls (fields.map FieldDeclaration.call ++ [.endPacked])).map fun builder =>
        { reader with builder } := by
  induction body generalizing reader text line next with
  | close here =>
    rw [run_close here proper spread]
    cases reader.builder.calls _ <;> rfl
  | @more fields others words rest following lines here spread' later ih =>
    obtain ⟨own, more⟩ := List.forall_mem_append.mp proper
    rw [run_open here own spread, List.map_append, List.append_assoc, Builder.calls_append]
    cases called : reader.builder.calls (fields.map FieldDeclaration.call) with
    | error fault => rfl
    | ok builder =>
      -- fields leave the group open, so the next line is read inside it too
      have still : Inside { reader with builder } :=
        ⟨⟨inside.reading, inside.headed⟩, Builder.isPacking_calls inside.packing called⟩
      refine (run_lines_cons { reader with builder } next following lines).trans ?_
      rw [still.run_line]
      exact ih more still (by rw [Text.words_trim, spread'.words_eq]) next (next + 1)

/-- From its opening brace on, a group makes its calls. -/
theorem follows_group {lines : List Text} (body : Body fields words lines)
    (proper : ∀ field ∈ fields, field.Proper) (reads : reader.Reads)
    (spread : Text.words text = words) (name? : Option String) (header line next : Nat) :
    Follows AtRest
      (((reader.openGroup name? header).value.groupBody line text).run.value >>= fun after =>
        (after.lines next lines).run.value)
      (reader.builder.calls (Declaration.packed name? fields).calls) := by
  have inside : (reader.openGroup name? header).value.Inside :=
    ⟨⟨reads.reading, reads.headed⟩, Builder.isPacking_beginPacked reader.builder name?⟩
  have made : reader.builder.calls (Declaration.packed name? fields).calls =
      (reader.openGroup name? header).value.builder.calls
        (fields.map FieldDeclaration.call ++ [.endPacked]) := rfl
  rw [run_body body proper inside spread, made]
  cases called : (reader.openGroup name? header).value.builder.calls
      (fields.map FieldDeclaration.call ++ [.endPacked]) with
  | error fault => exact .error
  | ok builder =>
    exact .ok ⟨⟨reads.reading, reads.headed⟩, Builder.isPacking_calls_endPacked called⟩

/-! ### Declarations -/

private theorem value_storage {basic : BasicType} {backing : Text} {scalar : Scalar}
    (stored : Scalar.ofName? backing.string = some scalar) (line : Nat) (type name : Text) :
    (storage line type name basic.scalar (some backing)).value = basic.storage (some scalar) := by
  rw [storage, stored, BasicType.storage]
  dsimp only
  split <;> rfl

private theorem value_declare {basic : BasicType} {type : Text} {name : String}
    (typed : BasicType.ofName? type.string = some basic)
    (named : Text.isIdentifier name.toList = true) (reader : Reader) (line : Nat)
    (backing? : Option Text) :
    (reader.declare line type name.toList backing?).value =
      { reader with builder := reader.builder.step (.add name
        ⟨(storage line type name.toList basic.scalar backing?).value, basic.count, false⟩) } := by
  rw [declare, typed]
  dsimp only
  rw [if_pos named, Text.string, String.ofList_toList]
  rfl

private theorem value_normalized {basic : BasicType} {type backing : Text} {name : String}
    {scalar : Scalar} (typed : BasicType.ofName? type.string = some basic)
    (named : Text.isIdentifier name.toList = true)
    (stored : Scalar.ofName? backing.string = some scalar) (integer : scalar.isInteger = true)
    (reader : Reader) (line : Nat) :
    (reader.normalized line [type, name.toList, backing]).value =
      { reader with
        builder := reader.builder.step (.add name ⟨scalar, basic.count, true⟩) } := by
  have known : (Scalar.ofName? backing.string).filter Scalar.isInteger = some scalar :=
    Option.filter_eq_some_iff.mpr ⟨stored, integer⟩
  rw [normalized, typed]
  dsimp only
  rw [if_pos named, known, Text.string, String.ofList_toList]
  dsimp only
  split <;> rfl

private theorem groupName?_eq {name? : Option String} {head : Text}
    (proper : ∀ name ∈ name?, Text.isIdentifier name.toList = true)
    (read : Text.words head = name?.toList.map String.toList) : groupName? head = name? := by
  rw [groupName?, read]
  cases name? with
  | none => rfl
  | some name => simp [proper name rfl, Text.string]

private theorem notMem_name {name? : Option String}
    (proper : ∀ name ∈ name?, Text.isIdentifier name.toList = true) :
    ∀ word ∈ name?.toList.map String.toList, '\x7b' ∉ word := by
  intro word member inside
  obtain ⟨name, named, rfl⟩ := List.mem_map.mp member
  have letter := Text.isWordChar_of_mem (proper name (Option.mem_toList.mp named)) _ inside
  cases letter

namespace AtRest

variable {reader : Reader} (rest : reader.AtRest) (number : Nat)
include rest

/-- Words that do not begin with the word of groups are those of an attribute. -/
theorem run_words {line first : Text} {others : List Text}
    (spread : Text.Spread (first :: others) line) (apart : first.head? ≠ some 'p') :
    (reader.lines number [line]).run.value = .ok (reader.unpacked number (first :: others)) := by
  obtain ⟨after, trimmed, -, -⟩ := Text.exists_after spread.words_eq
  have filled : first ≠ [] := by
    cases spread with
    | word _ proper _ _ => exact proper.filled
  have none : afterPacked? (Text.trim line) = none := by
    rw [Option.eq_none_iff_forall_ne_some]
    intro body packed
    have begins := (afterPacked?_eq_some_iff.mp packed).1
    obtain ⟨c, others, rfl⟩ := List.exists_cons_of_ne_nil filled
    rw [trimmed] at begins
    exact apart (congrArg List.head? begins)
  have read := rest.run_line number line
  rw [value_declaration, none, Text.words_trim, spread.words_eq] at read
  rw [run_lines_cons, read]
  rfl

/-- The word of a type begins a plain attribute. -/
theorem run_plain {basic : BasicType} {line type : Text} {others : List Text}
    (typed : BasicType.ofName? type.string = some basic)
    (spread : Text.Spread (type :: others) line) :
    (reader.lines number [line]).run.value = .ok (reader.plain number (type :: others)).value := by
  obtain ⟨notGroup, notNormalized, notBrace⟩ := head?_of_ofName? typed
  have other : type ≠ "normalized".toList := fun same => notNormalized (by rw [same]; rfl)
  rw [rest.run_words number spread notGroup, unpacked, if_neg notBrace, if_neg other]

theorem run_header {line : Text} {others : List Text}
    (spread : Text.words line = "packed".toList :: others) :
    ∃ after, Text.words after = others ∧
      (reader.line number line).run.value = (reader.header number after).run.value := by
  obtain ⟨after, trimmed, apart, read⟩ := Text.exists_after spread
  have packed : afterPacked? (Text.trim line) = some after :=
    afterPacked?_eq_some_iff.mpr ⟨trimmed, fun c first => .inl (apart c first)⟩
  refine ⟨after, read, ?_⟩
  rw [rest.run_line, value_declaration, packed]

/-- A header without its brace waits for the next line. -/
theorem run_waiting {name? : Option String} {line : Text}
    (named : ∀ name ∈ name?, Text.isIdentifier name.toList = true)
    (spread : Text.words line = headerWords name?) :
    (reader.line number line).run.value =
      .ok { reader with pending? := some ⟨name?, number⟩ } := by
  obtain ⟨after, read, header⟩ := rest.run_header number spread
  have unopened : Text.splitAt? '\x7b' after = none :=
    Text.splitAt?_eq_none_iff.mpr (Text.notMem_of_words rfl (read ▸ notMem_name named))
  rw [header, value_header, unopened]
  dsimp only [Option.map_none, Option.getD_none]
  rw [groupName?_eq named read]

theorem follows_add (name : String) (format : Format) :
    Follows AtRest (.ok { reader with builder := reader.builder.step (.add name format) })
      (reader.builder.calls [.add name format]) :=
  .ok ⟨⟨rest.reading, rest.headed⟩, Builder.isPacking_add rest.shut name format⟩

end AtRest

private theorem follows_declaration {declaration : Declaration} {lines : List Text}
    (own : declaration.Lines lines) (proper : declaration.Proper) {reader : Reader}
    (rest : reader.AtRest) (number : Nat) :
    Follows AtRest (reader.lines number lines).run.value
      (reader.builder.calls declaration.calls) := by
  cases own with
  | @plain basic name type line typed spread =>
    rw [rest.run_plain number typed spread, plain, value_declare typed proper]
    exact rest.follows_add name _
  | @backed basic name scalar type backing line typed stored spread =>
    rw [rest.run_plain number typed spread, plain, value_declare typed proper,
      value_storage stored]
    exact rest.follows_add name _
  | @normalized basic name scalar type backing line typed stored spread =>
    rw [rest.run_words number spread (by decide), unpacked, if_neg (by decide), if_pos rfl,
      value_normalized typed proper.1 stored proper.2]
    exact rest.follows_add name _
  | @sameLine name? fields words line lines spread body =>
    obtain ⟨named, fieldsProper⟩ := proper
    obtain ⟨after, read, header⟩ := rest.run_header number spread.words_eq
    obtain ⟨head, inner, cut, before, behind⟩ :=
      Text.splitAt?_of_words rfl read (notMem_name named)
    rw [run_lines_cons, header, value_header, cut]
    dsimp only [Option.map_some, Option.getD_some]
    rw [groupName?_eq named before]
    exact follows_group body fieldsProper rest.toReads behind name? number number (number + 1)
  | @nextLine name? fields words headerLine line lines head spread body =>
    obtain ⟨named, fieldsProper⟩ := proper
    obtain ⟨inner, trimmed, -, behind⟩ := Text.exists_after spread.words_eq
    rw [run_lines_cons, rest.run_waiting number named head.words_eq]
    change Follows AtRest (Reader.lines { reader with pending? := some ⟨name?, number⟩ }
      (number + 1) (line :: lines)).run.value _
    rw [run_lines_cons, run_pending rest.reading _ trimmed]
    have reads : Reads { reader with pending? := none } := ⟨rest.reading, rfl⟩
    exact follows_group body fieldsProper reads behind name? number (number + 1) (number + 1 + 1)

private theorem follows_section {declarations : List Declaration} {lines : List Text}
    (written : SectionLines declarations lines)
    (proper : ∀ declaration ∈ declarations, declaration.Proper) {reader : Reader}
    (rest : reader.AtRest) (number : Nat) :
    Follows AtRest (reader.lines number lines).run.value
      (reader.builder.calls (declarations.flatMap Declaration.calls)) := by
  induction written generalizing reader number with
  | nil => exact .ok rest
  | @blank declarations line lines spread others ih =>
    rw [run_lines_cons, rest.run_line, Text.trim_of_words_eq_nil spread.words_eq]
    exact ih proper rest (number + 1)
  | cons here others ih =>
    obtain ⟨own, more⟩ := List.forall_mem_cons.mp proper
    rw [run_lines_append, List.flatMap_cons, Builder.calls_append]
    exact (follows_declaration here own rest number).bind fun next still => ih more still _

private theorem builder_line_nil (reader : Reader) (number : Nat) :
    (reader.line number []).run.value.map Reader.builder = .ok reader.builder := by
  rw [line_eq]
  split
  · rfl
  · rw [value_content]
    cases reader.pending? with
    | none => exact congrArg (Except.map builder) (value_statement_nil reader number)
    | some pending => exact congrArg (Except.map builder) (value_statement_nil _ number)

/-- Carriage returns and an empty last line do not count. -/
theorem builder_lines_linesOfPieces (reader : Reader) (number : Nat) (pieces : List Text) :
    (reader.lines number (Text.linesOfPieces pieces)).run.value.map Reader.builder =
      (reader.lines number pieces).run.value.map Reader.builder := by
  induction pieces generalizing reader number with
  | nil => rfl
  | cons piece rest ih =>
    cases rest with
    | nil =>
      rw [Text.linesOfPieces]
      split
      next empty =>
        rw [List.isEmpty_iff.mp empty, run_lines_cons]
        have same := reader.builder_line_nil number
        cases read : (reader.line number []).run.value with
        | error fault =>
          rw [read] at same
          cases same
        | ok next =>
          rw [read] at same
          exact same.symm
      next => rfl
    | cons next more =>
      have same : reader.line number (Text.dropReturn piece) = reader.line number piece := by
        rw [line_eq, line_eq, Text.trim_dropReturn]
      rw [Text.linesOfPieces, run_lines_cons, run_lines_cons, same]
      cases (reader.line number piece).run.value with
      | error fault => rfl
      | ok after => exact ih after (number + 1)

end Reader

namespace Layout

/-- However proper declarations are written, reading the section is making their calls. -/
theorem ofSection_eq_declared {declarations : List Declaration} {text : Text}
    (proper : ∀ declaration ∈ declarations, declaration.Proper)
    (written : Written declarations text) :
    (ofSection text).run.value = declared declarations := by
  obtain ⟨lines, own, single, rfl⟩ := written
  have follows := (Reader.follows_section own proper Reader.atRest_start 1).same
  have builder : (Reader.start.lines 1 (Text.lines (Text.joinLines lines))).run.value.map
      Reader.builder = Builder.empty.calls (declarations.flatMap Declaration.calls) := by
    refine Eq.trans ?_ follows
    by_cases some : lines = []
    · subst some
      rfl
    · rw [Text.lines, Text.splitEvery_joinLines some single, Reader.builder_lines_linesOfPieces]
  rw [value_ofSection, declared, ← builder]
  cases (Reader.start.lines 1 (Text.lines (Text.joinLines lines))).run.value with
  | error fault => rfl
  | ok reader => simp only [Except.map, Reader.value_finish, Builder.value_build]

/-- Attributes and groups, the last of them with a name that is taken. -/
def looseDeclarations : List Declaration :=
  [.plain ⟨.float, 2⟩ "uv" (some .byte), .plain ⟨.int, 1⟩ "id" (some .short),
    .normalized ⟨.float, 4⟩ "tint" .byte,
    .packed none [⟨⟨.int, 2⟩, "cell", 10⟩, ⟨⟨.byte, 1⟩, "kind", 4⟩],
    .packed (some "packed") [⟨⟨.int, 1⟩, "flags", 32⟩], .plain ⟨.float, 1⟩ "uv" none]

def looseLines : List Text :=
  ["".toList, "  vec2\tuv  byte".toList, "int id short \r".toList,
    "normalized vec4 tint byte".toList, "packed".toList,
    "\x7b ivec2 cell 10 byte kind +4".toList, "\t".toList, " \x7d".toList,
    "packed packed \x7b int flags 32 \x7d".toList, "float uv".toList]

private theorem written_looseLines : Written looseDeclarations (Text.joinLines looseLines) := by
  have uv : Text.Spread ["vec2".toList, "uv".toList, "byte".toList] "  vec2\tuv  byte".toList :=
    Text.spread_of_words rfl
  have id : Text.Spread ["int".toList, "id".toList, "short".toList] "int id short \r".toList :=
    Text.spread_of_words rfl
  have tint : Text.Spread ["normalized".toList, "vec4".toList, "tint".toList, "byte".toList]
      "normalized vec4 tint byte".toList := Text.spread_of_words rfl
  have header : Text.Spread (headerWords none) "packed".toList := Text.spread_of_words rfl
  have fields : Text.Spread (['\x7b'] :: ["ivec2".toList, "cell".toList, "10".toList, "byte".toList,
      "kind".toList, "+4".toList]) "\x7b ivec2 cell 10 byte kind +4".toList :=
    Text.spread_of_words rfl
  have blank : Text.Spread [] "\t".toList := Text.spread_of_words rfl
  have brace : Text.Spread [['\x7d']] " \x7d".toList := Text.spread_of_words rfl
  have flags : Text.Spread (headerWords (some "packed") ++ ['\x7b'] ::
      (["int".toList, "flags".toList, "32".toList] ++ [['\x7d']]))
      "packed packed \x7b int flags 32 \x7d".toList := Text.spread_of_words rfl
  have again : Text.Spread ["float".toList, "uv".toList] "float uv".toList :=
    Text.spread_of_words rfl
  have body : Body [⟨⟨.int, 2⟩, "cell", 10⟩, ⟨⟨.byte, 1⟩, "kind", 4⟩]
      ["ivec2".toList, "cell".toList, "10".toList, "byte".toList, "kind".toList, "+4".toList]
      ["\t".toList, " \x7d".toList] :=
    .more (.cons rfl rfl (.cons rfl rfl .nil)) blank (.more .nil brace (.close .nil))
  refine ⟨looseLines, ?_, by decide, rfl⟩
  exact .blank (Text.spread_of_words rfl) <| .cons (.backed rfl rfl uv) <|
    .cons (.backed rfl rfl id) <| .cons (.normalized rfl rfl tint) <|
    .cons (.nextLine header fields body) <|
    .cons (.sameLine flags (.close (.cons rfl rfl .nil))) <| .cons (.plain rfl again) .nil

/-- Two fields of 33 bits. -/
def overfullDeclarations : List Declaration :=
  [.packed (some "g") [⟨⟨.int, 1⟩, "a", 31⟩, ⟨⟨.int, 1⟩, "b", 2⟩]]

def overfullLines : List Text := ["packed g \x7b int a 31".toList, "int b 2 \x7d".toList]

private theorem written_overfullLines :
    Written overfullDeclarations (Text.joinLines overfullLines) := by
  have first : Text.Spread (headerWords (some "g") ++ ['\x7b'] ::
      ["int".toList, "a".toList, "31".toList]) "packed g \x7b int a 31".toList :=
    Text.spread_of_words rfl
  have last : Text.Spread (["int".toList, "b".toList, "2".toList] ++ [['\x7d']])
      "int b 2 \x7d".toList := Text.spread_of_words rfl
  have body : Body [⟨⟨.int, 1⟩, "a", 31⟩, ⟨⟨.int, 1⟩, "b", 2⟩]
      ["int".toList, "a".toList, "31".toList] ["int b 2 \x7d".toList] :=
    .more (.cons rfl rfl .nil) last (.close (.cons rfl rfl .nil))
  exact ⟨overfullLines, .cons (.sameLine first body) .nil, by decide, rfl⟩

theorem ofSection_eq_declared_loose :
    ((∀ declaration ∈ looseDeclarations, declaration.Proper) ∧
      Written looseDeclarations (Text.joinLines looseLines) ∧
      (ofSection (Text.joinLines looseLines)).run.value = declared looseDeclarations) ∧
    (∀ declaration ∈ overfullDeclarations, declaration.Proper) ∧
      Written overfullDeclarations (Text.joinLines overfullLines) ∧
      (ofSection (Text.joinLines overfullLines)).run.value = declared overfullDeclarations ∧
      declared overfullDeclarations = .error (.packedOverflow "g" "b" 2 1) := by
  have loose : ∀ declaration ∈ looseDeclarations, declaration.Proper := by decide
  have overfull : ∀ declaration ∈ overfullDeclarations, declaration.Proper := by decide
  exact ⟨⟨loose, written_looseLines, ofSection_eq_declared loose written_looseLines⟩,
    overfull, written_overfullLines, ofSection_eq_declared overfull written_overfullLines, rfl⟩

end Layout

end ShaderPipeline.Vertex
