import Mathlib.Data.List.Forall2
import ShaderPipeline.Proofs.Schema.Printing
import ShaderPipeline.Proofs.Text.Spread

/-! Declared structs are read back from their shader declarations. The lines of a struct take a
reader between two structs to the next such place, and leave no warning on the way. -/

namespace ShaderPipeline.Schema

open Text

/-! ### Lines of members -/

/-- A line of a body that opens nothing and closes nothing. -/
structure MemberLine (line : Text) : Prop where
  unopened : '\x7b' ∉ line
  unclosed : '\x7d' ∉ line
  other : (words line).head? ≠ some TypesReader.keyword

/-- A line that declares a member and nothing else, with any blanks. -/
structure Property.WrittenOn (property : Property) (line : Text) : Prop extends MemberLine line where
  declared : ∃ statement declarator, statements (trim line) = [statement] ∧
    splitBlank? statement = some (property.type.name.toList, declarator) ∧
    splitArraySuffix? declarator = some (property.name.toList, property.length)

private theorem keyword_ne_builtIn :
    ∀ type ∈ ValueType.all, type.name.toList ≠ TypesReader.keyword := by
  decide

private theorem ne_keyword {structs : List Struct}
    (unreserved : ∀ struct ∈ structs, struct.name ≠ "struct")
    {type : PropertyType} (known : type.KnownIn structs) :
    type.name.toList ≠ TypesReader.keyword := by
  cases type with
  | value builtIn => exact keyword_ne_builtIn builtIn known
  | struct name =>
    obtain ⟨struct, member, rfl⟩ := known
    exact fun same => unreserved struct member (String.toList_inj.mp same)

/-- A member is written on the line of its declaration. -/
theorem Property.writtenOn_declaration {structs : List Struct}
    (named : ∀ struct ∈ structs, isIdentifier struct.name.toList = true)
    (unreserved : ∀ struct ∈ structs, struct.name ≠ "struct") {property : Property}
    (proper : property.ProperIn structs) (bounded : property.length ≤ wordMax) :
    property.WrittenOn ("    ".toList ++ property.declaration) := by
  have typeName := isWord_of_isIdentifier (PropertyType.isIdentifier_name named proper.known)
  have spells := property.spells named proper
  have isWords := property.isWord_words named proper
  have trimmed : trim ("    ".toList ++ property.declaration) = property.declaration := by
    rw [property.declaration_eq]
    exact trim_joinWords isWords (isBlank_of_mem_spaces 4)
  have absent : ∀ c : Char, isWordChar c = false → c ∉ [' ', '[', ']', ';'] →
      c ∉ "    ".toList ++ property.declaration := by
    intro c mark apart
    have inside := property.notMem_statement named proper mark (by simp_all)
    rw [property.declaration_eq_statement]
    simp_all
  refine ⟨⟨absent '\x7b' rfl (by simp), absent '\x7d' rfl (by simp), ?_⟩, property.statement,
    declarator property.name.toList property.length, ?_, ?_,
    splitArraySuffix?_declarator proper.identifier proper.positive bounded⟩
  · rw [spells.words_eq]
    exact fun same => ne_keyword unreserved proper.known (Option.some.inj same)
  · rw [trimmed, property.declaration_eq_statement]
    exact statements_append_semicolon (property.notMem_statement named proper rfl (by simp))
      (by simp [property.statement_eq]) (property.trim_statement named proper)
  · rw [property.statement_eq, splitBlank?_append_cons typeName.solid rfl]

/-- A member is no longer than the bytes of all members. -/
theorem Types.length_le_tightTotal {structs : List Struct}
    (sized : ∀ struct ∈ structs, 0 < struct.size) {properties : List Property}
    (proper : ∀ property ∈ properties, property.ProperIn structs) :
    ∀ property ∈ properties, property.length ≤ Types.tightTotal ⟨structs⟩ properties := by
  induction properties with
  | nil => exact fun _ absent => (nomatch absent)
  | cons first rest ih =>
    have element : 0 < Types.tightSize ⟨structs⟩ first.type :=
      Types.tightSize_pos sized (proper first (by simp)).known
    have bytes := Nat.le_mul_of_pos_left first.length element
    intro property member
    rw [Types.tightTotal]
    rcases List.mem_cons.mp member with rfl | later
    · omega
    · have inner := ih (fun other present => proper other (by simp [present])) property later
      omega

/-! ### Lines of a struct -/

namespace TypesReader

theorem lines_append (reader : TypesReader) (number : Nat) (first second : List Text) :
    reader.lines number (first ++ second) =
      reader.lines number first >>= fun reader => reader.lines (number + first.length) second := by
  induction first generalizing reader number with
  | nil => rw [List.nil_append, lines, pure_bind, List.length_nil, Nat.add_zero]
  | cons line rest ih =>
    rw [List.cons_append, lines, lines, bind_assoc]
    congr 1
    funext after
    rw [ih, List.length_cons, Nat.add_assoc, Nat.add_comm 1]

/-- A reader between two structs. -/
def between (structs : List Struct) : TypesReader := ⟨⟨structs⟩, none, none, false⟩

/-- A reader behind members of a struct that is to be kept. -/
def inside (structs : List Struct) (header : Nat) (struct : Struct) : TypesReader :=
  ⟨⟨structs⟩, some ⟨struct, header, true⟩, none, false⟩

variable {structs : List Struct}

/-- A member's type and declarator are read as the member. -/
theorem addProperty_declared (earlier : (⟨structs⟩ : Types).Proper) {struct : Struct}
    {property : Property} (proper : property.ProperIn structs)
    (fresh : struct.property? property.name = none)
    (room : struct.size + Types.tightSize ⟨structs⟩ property.type * property.length ≤ wordMax)
    {statement declarator : Text}
    (split : splitBlank? statement = some (property.type.name.toList, declarator))
    (suffix : splitArraySuffix? declarator = some (property.name.toList, property.length)) :
    addProperty ⟨structs⟩ struct statement =
      .ok { struct with
        properties := struct.properties ++ [property]
        size := struct.size + Types.tightSize ⟨structs⟩ property.type * property.length } := by
  have resolved : Types.resolve? ⟨structs⟩ property.type.name =
      some (property.type, Types.tightSize ⟨structs⟩ property.type) :=
    Types.resolve?_name earlier.unnamed proper.known
  rw [addProperty, split]
  dsimp only
  rw [suffix]
  simp only [proper.identifier, Text.string, String.ofList_toList, resolved, fresh, Struct.push?,
    room]
  rfl

/-- A line that no header waits for is read from its first word on. -/
theorem line_eq_declaration {reader : TypesReader} (reading : reader.skipping = false)
    (ready : reader.pending? = none) {line text : Text} (trimmed : trim line = text)
    (number : Nat) : reader.line number line = reader.declaration number text := by
  rw [TypesReader.line]
  simp only [reading, ready, trimmed, Bool.false_eq_true, ↓reduceIte]

/-- A line that starts with the keyword is a header, unless a struct is open. -/
theorem declaration_eq_header {reader : TypesReader} {text : Text} {rest : List Text}
    (closed : reader.current? = none) (first : words text = keyword :: rest) (number : Nat) :
    reader.declaration number text = reader.header number (text.drop keyword.length) := by
  rw [declaration, first, List.head?_cons]
  simp only [closed, ↓reduceIte]

/-- A line that declares no struct belongs to a body. -/
theorem declaration_eq_body (reader : TypesReader) {text word : Text} {rest : List Text}
    (first : words text = word :: rest) (other : word ≠ keyword) (shut : word.head? ≠ some '\x7b')
    (number : Nat) : reader.declaration number text = reader.body number text := by
  rw [declaration, first, List.head?_cons]
  simp only [other, shut, ↓reduceIte]

theorem body_of_notMem (reader : TypesReader) {text : Text} (unclosed : '\x7d' ∉ text)
    (number : Nat) : reader.body number text = reader.statements number (Text.statements text) := by
  rw [body, BlockLine.ofText_of_notMem unclosed]
  exact bind_pure _

private theorem body_closing (reader : TypesReader) (number : Nat) :
    reader.body number ['\x7d', ';'] = reader.close number :=
  pure_bind reader fun read => read.close number

/-- A line without braces comes to its statements. -/
theorem line_member {reader : TypesReader} (reading : reader.skipping = false)
    (ready : reader.pending? = none) {line : Text} (member : MemberLine line) (number : Nat) :
    reader.line number line = reader.statements number (Text.statements (trim line)) := by
  rw [line_eq_declaration reading ready rfl]
  cases first : words line with
  | nil =>
    rw [trim_of_words_eq_nil first, statements_nil]
    rfl
  | cons word rest =>
    have other : word ≠ keyword := fun same => member.other (by rw [first, same]; rfl)
    obtain ⟨gap, behind, whole, _⟩ := words_eq_cons first
    have shut : word.head? ≠ some '\x7b' := by
      intro opens
      have inside := List.mem_of_head? opens
      exact member.unopened (by simp [whole, inside])
    rw [declaration_eq_body reader (by rw [words_trim, first]) other shut,
      body_of_notMem reader fun inside => member.unclosed (trim_subset line inside)]

theorem line_property (earlier : (⟨structs⟩ : Types).Proper) {struct : Struct}
    {property : Property} (proper : property.ProperIn structs)
    (fresh : struct.property? property.name = none)
    (room : struct.size + Types.tightSize ⟨structs⟩ property.type * property.length ≤ wordMax)
    {line : Text} (written : property.WrittenOn line) (header number : Nat) :
    (inside structs header struct).line number line =
      pure (inside structs header { struct with
        properties := struct.properties ++ [property]
        size := struct.size + Types.tightSize ⟨structs⟩ property.type * property.length }) := by
  obtain ⟨statement, declarator, pieces, split, suffix⟩ := written.declared
  rw [line_member rfl rfl written.toMemberLine, pieces, statements, TypesReader.statement, inside]
  dsimp only
  rw [addProperty_declared earlier proper fresh room split suffix]
  exact pure_bind _ _

theorem nameProblem?_eq_none {types : Types} {name : Text} (identifier : isIdentifier name = true)
    (unnamed : ValueType.ofName? name.string = none) (fresh : types.contains name.string = false) :
    nameProblem? types name = none := by
  simp [nameProblem?, identifier, unnamed, fresh]

private theorem splitHeader_name {name : Text} (identifier : isIdentifier name = true) :
    splitHeader (' ' :: name ++ [' ', '\x7b']) = (name, some []) := by
  have letters := isWordChar_of_mem identifier
  have opening : '\x7b' ∉ ' ' :: name ++ [' '] := by
    intro member
    rcases List.mem_append.mp member with front | last
    · rcases List.mem_cons.mp front with space | inside
      · cases space
      · cases letters '\x7b' inside
    · cases List.mem_singleton.mp last
  have trimmed : trim (' ' :: name ++ [' ']) = name := by
    have blank : ∀ c ∈ [' '], isBlank c = true := isBlank_of_mem_spaces 1
    exact trim_eq_of_blank_ends blank
      (fun c first => isBlank_of_isWordChar (letters c (List.mem_of_head? first)))
      (fun c last => isBlank_of_isWordChar (letters c (List.mem_of_getLast? last))) blank
  have split : ' ' :: name ++ [' ', '\x7b'] = (' ' :: name ++ [' ']) ++ ['\x7b'] := by simp
  rw [splitHeader, split, splitAt?_append_cons opening]
  dsimp only
  rw [trimmed]

private theorem joinWords_headerWords (name : String) :
    joinWords (headerWords name) = keyword ++ (' ' :: name.toList ++ [' ', '\x7b']) := by
  have more : joinWords [name.toList, ['\x7b']] = name.toList ++ [' ', '\x7b'] := by
    simp [joinWords, List.intercalate]
  exact (joinWords_cons_cons keyword name.toList [['\x7b']]).trans (by rw [more]; rfl)

private theorem line_header {name : String} (identifier : isIdentifier name.toList = true)
    (unnamed : ValueType.ofName? name = none) (fresh : ∀ struct ∈ structs, struct.name ≠ name)
    (number : Nat) :
    (between structs).line number s!"struct {name} \x7b".toList =
      pure (inside structs number (.empty name)) := by
  have isWords := (spells_header identifier).proper
  have first : words (joinWords (headerWords name)) = keyword :: [name.toList, ['\x7b']] :=
    words_joinWords isWords
  have same : Text.string name.toList = name := String.ofList_toList
  have absent : (⟨structs⟩ : Types).contains name = false := by
    simpa [Types.contains, Types.find?] using fresh
  have trimmed : trim s!"struct {name} \x7b".toList = joinWords (headerWords name) := by
    rw [header_eq]
    exact trim_joinWords isWords (isBlank_of_mem_spaces 0)
  have after : (joinWords (headerWords name)).drop keyword.length =
      ' ' :: name.toList ++ [' ', '\x7b'] := by
    rw [joinWords_headerWords, List.drop_left]
  have fine : nameProblem? ⟨structs⟩ name.toList = none :=
    nameProblem?_eq_none identifier (by rw [same, unnamed]) (by rw [same, absent])
  have empty : (inside structs number (.empty name)).body number [] =
      pure (inside structs number (.empty name)) := by
    rw [body_of_notMem _ (by simp), statements_nil]
    rfl
  rw [line_eq_declaration rfl rfl trimmed,
    declaration_eq_header rfl first, after, header, splitHeader_name identifier]
  dsimp only
  rw [between, fine, same]
  exact empty

private theorem line_closing {struct : Struct} (filled : struct.properties ≠ [])
    (fresh : ∀ other ∈ structs, other.name ≠ struct.name) (header number : Nat) :
    (inside structs header struct).line number "\x7d;".toList =
      pure (between (structs ++ [struct])) := by
  have absent : structs.find? (·.name == struct.name) = none := by
    simpa using fresh
  have trimmed : trim "\x7d;".toList = ['\x7d', ';'] := rfl
  have first : words ['\x7d', ';'] = [['\x7d', ';']] := rfl
  rw [line_eq_declaration rfl rfl trimmed, declaration_eq_body _ first (by decide) (by decide),
    body_closing, close]
  simp [inside, filled, Types.add?, Types.contains, Types.find?, absent, between]

/-- A struct as far as the given members go. -/
def partly (earlier : List Struct) (name : String) (properties : List Property) : Struct :=
  ⟨name, properties, Types.tightTotal ⟨earlier⟩ properties⟩

/-- The lines of members extend the struct that is open by all of them. -/
theorem lines_properties (earlier : (⟨structs⟩ : Types).Proper) (name : String) (header : Nat)
    (taken : List Property) {rest : List Property} {lines : List Text}
    (written : List.Forall₂ Property.WrittenOn rest lines)
    (names : ((taken ++ rest).map Property.name).Nodup)
    (proper : ∀ property ∈ rest, property.ProperIn structs)
    (bounded : Types.tightTotal ⟨structs⟩ (taken ++ rest) ≤ wordMax) (number : Nat) :
    (inside structs header (partly structs name taken)).lines number lines =
      pure (inside structs header (partly structs name (taken ++ rest))) := by
  -- The members taken so far are the reader's state, so the induction is over the others alone.
  induction written generalizing taken number with
  | nil => rw [List.append_nil]; rfl
  | @cons property line rest lines here written ih =>
    have moved : taken ++ property :: rest = (taken ++ [property]) ++ rest := by simp
    have fresh : (partly structs name taken).property? property.name = none := by
      rw [List.map_append, List.nodup_append] at names
      simp only [Struct.property?, partly, List.find?_eq_none, beq_iff_eq]
      exact fun other member => names.2.2 other.name (List.mem_map_of_mem member) property.name
        (by simp)
    have total : Types.tightTotal ⟨structs⟩ (taken ++ [property]) =
        Types.tightTotal ⟨structs⟩ taken +
          Types.tightSize ⟨structs⟩ property.type * property.length := by
      rw [Types.tightTotal_append, Types.tightTotal, Types.tightTotal, Nat.add_zero]
    have room : (partly structs name taken).size +
        Types.tightSize ⟨structs⟩ property.type * property.length ≤ wordMax := by
      rw [moved, Types.tightTotal_append, total] at bounded
      exact Nat.le_trans (Nat.le_add_right _ _) bounded
    rw [moved] at names bounded ⊢
    have read := line_property earlier (proper property List.mem_cons_self) fresh room here
      header number
    rw [TypesReader.lines, read, pure_bind]
    have later := ih (taken ++ [property]) names
      (fun other member => proper other (List.mem_cons_of_mem property member)) bounded (number + 1)
    rw [partly, total] at later
    exact later

/-- The lines of all members of a struct fill it. -/
theorem lines_members (earlier : (⟨structs⟩ : Types).Proper) {struct : Struct}
    (proper : struct.ProperAfter structs) {lines : List Text}
    (written : List.Forall₂ Property.WrittenOn struct.properties lines) (header number : Nat) :
    (inside structs header (.empty struct.name)).lines number lines =
      pure (inside structs header struct) := by
  have whole : partly structs struct.name struct.properties = struct := by
    rw [partly, ← proper.size]
  have bounded := proper.bounded
  rw [proper.size] at bounded
  have read := lines_properties earlier struct.name header [] written proper.members.names
    proper.members.each bounded number
  rwa [List.nil_append, whole] at read

/-- The lines of a struct take a reader past it. -/
theorem lines_struct (earlier : (⟨structs⟩ : Types).Proper)
    (unreserved : ∀ struct ∈ structs, struct.name ≠ "struct") {struct : Struct}
    (proper : struct.ProperAfter structs) (fresh : ∀ other ∈ structs, other.name ≠ struct.name)
    (number : Nat) :
    (between structs).lines number struct.declarationLines =
      pure (between (structs ++ [struct])) := by
  have written : List.Forall₂ Property.WrittenOn struct.properties
      (struct.properties.map fun property => "    ".toList ++ property.declaration) := by
    rw [List.forall₂_map_right_iff, List.forall₂_same]
    intro property member
    have length := Types.length_le_tightTotal earlier.sized proper.members.each property member
    rw [← proper.size] at length
    exact property.writtenOn_declaration earlier.isIdentifier unreserved
      (proper.members.each property member) (Nat.le_trans length proper.bounded)
  rw [Struct.declarationLines, blockLines, List.cons_append, lines,
    line_header proper.identifier proper.notBuiltIn fresh, pure_bind, lines_append,
    lines_members earlier proper written, pure_bind, lines, line_closing proper.filled fresh,
    pure_bind, lines]

/-- The lines of structs take a reader past all of them. -/
theorem lines_structs (before after : List Struct) (proper : (⟨before ++ after⟩ : Types).Proper)
    (unreserved : ∀ struct ∈ before ++ after, struct.name ≠ "struct") (number : Nat) :
    (between before).lines number (after.flatMap Struct.declarationLines) =
      pure (between (before ++ after)) := by
  induction after generalizing before number with
  | nil => rw [List.append_nil]; rfl
  | cons struct rest ih =>
    have moved : before ++ struct :: rest = (before ++ [struct]) ++ rest := by simp
    have fresh : ∀ other ∈ before, other.name ≠ struct.name := by
      have names := proper.names
      rw [List.map_append, List.nodup_append] at names
      exact fun other member => names.2.2 other.name (List.mem_map_of_mem member) struct.name
        (by simp)
    have read := lines_struct (proper.earlier rfl)
      (fun other member => unreserved other (List.mem_append_left _ member))
      (proper.declared before struct rest rfl) fresh number
    rw [List.flatMap_cons, lines_append, read, pure_bind]
    rw [moved] at proper unreserved ⊢
    exact ih (before ++ [struct]) proper unreserved (number + struct.declarationLines.length)

end TypesReader

namespace Types

/-- Proper structs, none of them named by the keyword, are read back from their shader
declarations, sizes included and without a warning. -/
theorem ofSection_declarations (types : Types) (proper : types.Proper)
    (unreserved : ∀ struct ∈ types.structs, struct.name ≠ "struct") :
    Types.ofSection types.declarations = pure types := by
  have read := TypesReader.lines_structs [] types.structs proper unreserved 1
  rw [ofSection, declarations, lines_joinLines proper.whole_declarationLines]
  rw [show TypesReader.start = TypesReader.between [] from rfl, read, pure_bind]
  rfl

/-- A struct with an array and one that nests an array of it. -/
def scene : Types :=
  ⟨[⟨"light", [⟨"position", .value (.vector .float 3), 1⟩, ⟨"weights", .value .float, 4⟩], 28⟩,
    ⟨"scene", [⟨"lights", .struct "light", 8⟩, ⟨"view", .value (.matrix 4), 1⟩], 288⟩]⟩

/-- The same structs, laid out by hand. -/
def sceneSection : Text :=
  "struct light { vec3 position; float weights [4] };
  struct scene
  { light lights[8]
    mat4 view }".toList

theorem ofSection_declarations_scene :
    scene.Proper ∧ (∀ struct ∈ scene.structs, struct.name ≠ "struct") ∧
      Types.ofSection scene.declarations = pure scene := by
  have read : (Types.ofSection sceneSection).value = scene := by decide +kernel
  have proper : scene.Proper := read ▸ proper_ofSection sceneSection
  have unreserved : ∀ struct ∈ scene.structs, struct.name ≠ "struct" := by decide
  exact ⟨proper, unreserved, ofSection_declarations scene proper unreserved⟩

end Types

end ShaderPipeline.Schema
