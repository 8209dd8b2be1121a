import ShaderPipeline.Program.Stage
import ShaderPipeline.Proofs.Schema.Printing
import ShaderPipeline.Proofs.Schema.ProperUniforms

/-! The order of shader declarations: a line of the declared structs and uniforms names a struct
only behind the line that opens it. -/

namespace ShaderPipeline

namespace Text

/-! ### Types in lines -/

/-- The type that a line names: the word before a declarator, which a semicolon ends. -/
def mentionedType? (line : Text) : Option Text :=
  match (words line).reverse with
  | declarator :: type :: _ => if declarator.getLast? = some ';' then some type else none
  | _ => none

/-- The struct whose declaration a line opens. -/
def openedStruct? (line : Text) : Option Text :=
  match words line with
  | [keyword, name, brace] =>
    if keyword = "struct".toList ∧ brace = ['\x7b'] then some name else none
  | _ => none

def openedStructs (lines : List Text) : List Text := lines.filterMap openedStruct?

/-- Behind lines that open the given structs, each line names one of those opened so far, or a
type that needs no declaration. -/
def OrderedFrom (exempt : Text → Prop) (opened : List Text) : List Text → Prop
  | [] => True
  | line :: rest =>
    (∀ type, mentionedType? line = some type → type ∈ opened ∨ exempt type) ∧
      OrderedFrom exempt (opened ++ (openedStruct? line).toList) rest

private theorem openedStructs_append (first second : List Text) :
    openedStructs (first ++ second) = openedStructs first ++ openedStructs second :=
  List.filterMap_append

private theorem openedStructs_cons (line : Text) (rest : List Text) :
    openedStructs (line :: rest) = (openedStruct? line).toList ++ openedStructs rest := by
  rw [openedStructs, List.filterMap_cons]
  cases openedStruct? line <;> rfl

variable {exempt : Text → Prop} {opened : List Text}

theorem OrderedFrom.append {first second : List Text} (before : OrderedFrom exempt opened first)
    (after : OrderedFrom exempt (opened ++ openedStructs first) second) :
    OrderedFrom exempt opened (first ++ second) := by
  induction first generalizing opened with
  | nil => simpa [openedStructs] using after
  | cons line rest ih =>
    rw [openedStructs_cons, ← List.append_assoc] at after
    exact ⟨before.1, ih before.2 after⟩

/-- A line that opens no struct, and names only allowed types. -/
structure Plain (allowed : Text → Prop) (line : Text) : Prop where
  whole : Whole line
  closed : openedStruct? line = none
  names : ∀ type, mentionedType? line = some type → allowed type

private theorem openedStructs_of_plain {allowed : Text → Prop} {lines : List Text}
    (plain : ∀ line ∈ lines, Plain allowed line) : openedStructs lines = [] :=
  List.filterMap_eq_nil_iff.mpr fun line member => (plain line member).closed

theorem OrderedFrom.of_plain {lines : List Text}
    (plain : ∀ line ∈ lines, Plain (fun type => type ∈ opened ∨ exempt type) line) :
    OrderedFrom exempt opened lines := by
  induction lines with
  | nil => trivial
  | cons line rest ih =>
    have first := plain line List.mem_cons_self
    refine ⟨first.names, ?_⟩
    rw [first.closed, Option.toList_none, List.append_nil]
    exact ih fun other member => plain other (List.mem_cons_of_mem line member)

/-- Only a line of three words, the last of which is a brace, opens a struct. -/
theorem openedStruct?_of_last {line last : Text} {all : List Text}
    (spells : line.Spells (all ++ [last])) (other : last ≠ ['\x7b']) :
    openedStruct? line = none := by
  rw [openedStruct?, spells.words_eq]
  split
  next keyword name brace same =>
    have ends := congrArg List.getLast? same
    rw [List.getLast?_concat] at ends
    rw [if_neg]
    rintro ⟨_, rfl⟩
    exact other (Option.some.inj ends)
  next => rfl

private theorem mentionedType?_of_spells {line type last : Text} {all : List Text}
    (spells : line.Spells (all ++ [type, last ++ [';']])) : mentionedType? line = some type := by
  rw [mentionedType?, spells.words_eq]
  simp

example : mentionedType? "layout(r8) uniform image2D map;".toList = some "image2D".toList := by
  rfl

/-- A line whose last word does not end in a semicolon names no type. -/
theorem mentionedType?_of_last {line last : Text} (all : List Text)
    (spells : line.Spells (all ++ [last])) (other : last.getLast? ≠ some ';') :
    mentionedType? line = none := by
  rw [mentionedType?, spells.words_eq, List.reverse_append, List.reverse_singleton,
    List.singleton_append]
  split
  next same =>
    obtain ⟨rfl, _⟩ := List.cons.inj same
    rw [if_neg other]
  next => rfl

theorem Plain.of_spells {allowed : Text → Prop} {line type last : Text} (all : List Text)
    (spells : line.Spells (all ++ [type, last ++ [';']])) (fine : allowed type) :
    Plain allowed line := by
  have ended : line.Spells ((all ++ [type]) ++ [last ++ [';']]) := by
    rwa [List.append_assoc, List.singleton_append]
  refine ⟨ended.whole _, openedStruct?_of_last ended (by cases last <;> simp), ?_⟩
  intro other same
  rw [mentionedType?_of_spells spells] at same
  obtain rfl := Option.some.inj same
  exact fine

end Text

open Text

namespace Schema

/-! ### Allowed types -/

/-- Names of types that need no declaration. -/
def BuiltIn (name : String) : Prop :=
  (ValueType.ofName? name).isSome ∨ (TextureShape.ofSamplerName? name).isSome ∨
    (TextureShape.ofImageName? name).isSome

/-- No line names a struct before the line that opens it, or names a type that is neither opened by
any line nor built in. -/
def DeclaredBeforeUse (lines : List Text) : Prop :=
  OrderedFrom (fun type => type ∉ openedStructs lines ∧ BuiltIn type.string) [] lines

def structNames (structs : List Struct) : List Text := structs.map (·.name.toList)

/-- A built-in name that no struct takes. -/
def Types.Exempt (types : Types) (type : Text) : Prop :=
  type ∉ structNames types.structs ∧ BuiltIn type.string

theorem Types.mem_or_exempt (types : Types) {name : String} (builtIn : BuiltIn name) :
    name.toList ∈ structNames types.structs ∨ types.Exempt name.toList := by
  by_cases declared : name.toList ∈ structNames types.structs
  · exact .inl declared
  · refine .inr ⟨declared, ?_⟩
    rwa [Text.string, String.ofList_toList]

theorem Types.Proper.exempt {types : Types} (proper : types.Proper) :
    ∀ type ∈ ValueType.all, types.Exempt type.name.toList := by
  intro type member
  have named := ofName?_builtIn type member
  constructor
  · intro taken
    obtain ⟨struct, present, same⟩ := List.mem_map.mp taken
    have unnamed := proper.unnamed struct present
    rw [String.toList_inj.mp same, named] at unnamed
    cases unnamed
  · rw [Text.string, String.ofList_toList]
    exact .inl (by rw [named]; rfl)

theorem Types.Proper.mem_or_exempt_of_known {types : Types} (proper : types.Proper)
    {structs : List Struct} {type : PropertyType} (known : type.KnownIn structs) :
    type.name.toList ∈ structNames structs ∨ types.Exempt type.name.toList := by
  cases type with
  | value builtIn => exact .inr (proper.exempt builtIn known)
  | struct name =>
    obtain ⟨struct, member, rfl⟩ := known
    exact .inl (List.mem_map_of_mem member)

/-! ### Lines of structs -/

section Lines

variable {allowed : Text → Prop}

private theorem plain_closing : Plain allowed "\x7d;".toList where
  whole := Spells.whole [] spells_closing
  closed := rfl
  names _ same := nomatch same

private theorem plain_body {structs : List Struct} {properties : List Property}
    (named : ∀ struct ∈ structs, isIdentifier struct.name.toList = true)
    (proper : ∀ property ∈ properties, property.ProperIn structs)
    (fine : ∀ property ∈ properties, allowed property.type.name.toList) :
    ∀ line ∈ properties.map (fun property => "    ".toList ++ property.declaration) ++
      ["\x7d;".toList], Plain allowed line := by
  intro line member
  rcases List.mem_append.mp member with inside | last
  · obtain ⟨property, present, rfl⟩ := List.mem_map.mp inside
    exact .of_spells [] (property.spells named (proper property present))
      (fine property present)
  · obtain rfl := List.mem_singleton.mp last
    exact plain_closing

end Lines

private theorem openedStruct?_header {name : String}
    (identifier : isIdentifier name.toList = true) :
    openedStruct? s!"struct {name} \x7b".toList = some name.toList := by
  rw [openedStruct?, (spells_header identifier).words_eq, headerWords]
  simp

private theorem mentionedType?_header {name : String}
    (identifier : isIdentifier name.toList = true) :
    mentionedType? s!"struct {name} \x7b".toList = none :=
  mentionedType?_of_last ["struct".toList, name.toList] (spells_header identifier)
    (by decide)

namespace Types.Proper

variable {types : Types} (proper : types.Proper)
include proper

private theorem plain_struct {before after : List Struct} {struct : Struct}
    (split : types.structs = before ++ struct :: after) :
    ∀ line ∈ struct.declarationLines.tail, Plain (fun type =>
      type ∈ structNames before ++ [struct.name.toList] ∨ types.Exempt type) line := by
  have declared := proper.declared before struct after split
  refine plain_body (proper.earlier split).isIdentifier declared.members.each ?_
  intro property member
  have known := (declared.members.each property member).known
  exact (proper.mem_or_exempt_of_known known).imp_left (List.mem_append_left _)

private theorem openedStructs_struct {before after : List Struct} {struct : Struct}
    (split : types.structs = before ++ struct :: after) :
    openedStructs struct.declarationLines = [struct.name.toList] := by
  have declared := proper.declared before struct after split
  have plain := openedStructs_of_plain (proper.plain_struct split)
  change openedStructs (s!"struct {struct.name} \x7b".toList :: struct.declarationLines.tail) = _
  rw [openedStructs_cons, openedStruct?_header declared.identifier, plain]
  rfl

private theorem orderedFrom_struct {before after : List Struct} {struct : Struct}
    (split : types.structs = before ++ struct :: after) :
    OrderedFrom types.Exempt (structNames before) struct.declarationLines := by
  have declared := proper.declared before struct after split
  constructor
  · intro type same
    rw [mentionedType?_header declared.identifier] at same
    cases same
  · rw [openedStruct?_header declared.identifier]
    exact .of_plain (proper.plain_struct split)

private theorem openedStructs_structs (before : List Struct) {after : List Struct}
    (split : types.structs = before ++ after) :
    openedStructs (after.flatMap Struct.declarationLines) = structNames after := by
  induction after generalizing before with
  | nil => rfl
  | cons struct rest ih =>
    have later := ih (before ++ [struct]) (by simp [split])
    rw [List.flatMap_cons, openedStructs_append, proper.openedStructs_struct split, later]
    rfl

private theorem orderedFrom_structs (before : List Struct) {after : List Struct}
    (split : types.structs = before ++ after) :
    OrderedFrom types.Exempt (structNames before) (after.flatMap Struct.declarationLines) := by
  induction after generalizing before with
  | nil => trivial
  | cons struct rest ih =>
    have later := ih (before ++ [struct]) (by simp [split])
    rw [List.flatMap_cons]
    refine (proper.orderedFrom_struct split).append ?_
    rw [proper.openedStructs_struct split]
    simpa [structNames] using later

end Types.Proper

/-! ### Lines of uniforms -/

/-- The type that a uniform outside blocks is declared with. -/
def UniformKind.typeName? : UniformKind → Option String
  | .value type => some type.name
  | .struct name => some name
  | .sampler shape => some ("sampler" ++ shape.typeEnding)
  | .image shape _ => some ("image" ++ shape.typeEnding)
  | .buffer _ => none

/-- The words in front of a uniform's type. -/
def UniformKind.qualifiers : UniformKind → List Text
  | .image _ (some format) => [s!"layout({format.qualifier})".toList, "uniform".toList]
  | _ => ["uniform".toList]

/-- The words of a uniform's type and name. -/
def Uniform.declared (uniform : Uniform) (type : String) : List Text :=
  [type.toList, declarator uniform.name.toList uniform.length ++ [';']]

theorem Uniform.declarationLines_eq {uniform : Uniform} {type : String}
    (named : uniform.kind.typeName? = some type) (rule : Memory.Rule) :
    uniform.declarationLines rule =
      [joinWords (uniform.kind.qualifiers ++ uniform.declared type)] := by
  obtain ⟨name, kind, length⟩ := uniform
  rcases kind with _ | _ | _ | ⟨shape, _ | format⟩ | _ <;> cases named
  all_goals
    unfold declarationLines UniformKind.qualifiers declared declarator
    dsimp only
    split <;> simp [joinWords, List.intercalate, ToString.toString]

theorem UniformKind.isWord_qualifiers (kind : UniformKind) :
    ∀ word ∈ kind.qualifiers, IsWord word := by
  have plain : ∀ word ∈ ["uniform".toList], IsWord word := by
    intro word member
    obtain rfl := List.mem_singleton.mp member
    decide
  rcases kind with _ | _ | _ | ⟨shape, _ | format⟩ | _
  case image.some =>
    intro word member
    rcases List.mem_cons.mp member with rfl | last
    · cases format <;> decide
    · exact plain word last
  all_goals exact plain

theorem UniformKind.typeName?_cases {kind : UniformKind} {types : Types}
    (proper : kind.ProperIn types) {type : String} (named : kind.typeName? = some type) :
    (∃ known : PropertyType, known.KnownIn types.structs ∧ type = known.name) ∨
      isIdentifier type.toList = true ∧ BuiltIn type := by
  cases kind with
  | value builtIn => cases named; exact .inl ⟨.value builtIn, proper, rfl⟩
  | struct name => cases named; exact .inl ⟨.struct type, proper, rfl⟩
  | sampler shape =>
    cases named
    refine .inr ⟨?_, .inr (.inl ?_)⟩ <;> cases shape <;> decide
  | image shape format =>
    cases named
    refine .inr ⟨?_, .inr (.inr ?_)⟩ <;> cases shape <;> first | decide | exact absurd rfl proper
  | buffer block => cases named

/-- The words of a block's header. -/
def BufferBlock.headerWords (block : BufferBlock) (rule : Memory.Rule) : List Text :=
  [s!"layout({rule.name})".toList, (storageWord rule).toList, block.name.toList]

theorem BufferBlock.spells_header {block : BufferBlock}
    (identifier : isIdentifier block.name.toList = true) (rule : Memory.Rule) :
    Spells s!"layout({rule.name}) {storageWord rule} {block.name} \x7b".toList
      (block.headerWords rule ++ [['\x7b']]) where
  proper := by
    intro word member
    simp only [headerWords, List.mem_append, List.mem_cons, List.not_mem_nil, or_false] at member
    rcases member with (rfl | rfl | rfl) | rfl
    · cases rule <;> decide
    · cases rule <;> decide
    · exact isWord_of_isIdentifier identifier
    · decide
  spelled := ⟨0, by simp [headerWords, joinWords, List.intercalate, ToString.toString]⟩

theorem BufferBlock.plain_header {allowed : Text → Prop} {block : BufferBlock}
    (identifier : isIdentifier block.name.toList = true) (rule : Memory.Rule) :
    Plain allowed s!"layout({rule.name}) {storageWord rule} {block.name} \x7b".toList where
  whole := (spells_header identifier rule).whole _
  closed := by
    rw [openedStruct?, (spells_header identifier rule).words_eq]
    rfl
  names type same := by
    rw [mentionedType?_of_last _ (spells_header identifier rule) (by decide)] at same
    cases same

/-- The lines of a uniform name structs that are declared, and built-in types. -/
theorem Uniform.plain_declarationLines {types : Types} (declared : types.Proper)
    {uniform : Uniform} (proper : uniform.ProperIn types) (rule : Memory.Rule) :
    ∀ line ∈ uniform.declarationLines rule, Plain (fun type =>
      type ∈ structNames types.structs ∨ types.Exempt type) line := by
  -- Outside blocks a uniform is a single line, and a block has a body as a struct has.
  cases named : uniform.kind.typeName? with
  | some type =>
    have fine : isIdentifier type.toList = true ∧
        (type.toList ∈ structNames types.structs ∨ types.Exempt type.toList) := by
      rcases UniformKind.typeName?_cases proper.kind named with
        ⟨property, known, rfl⟩ | ⟨word, builtIn⟩
      · exact ⟨PropertyType.isIdentifier_name declared.isIdentifier known,
          declared.mem_or_exempt_of_known known⟩
      · exact ⟨word, types.mem_or_exempt builtIn⟩
    intro line member
    rw [declarationLines_eq named rule] at member
    obtain rfl := List.mem_singleton.mp member
    refine Plain.of_spells uniform.kind.qualifiers ⟨?_, 0, rfl⟩ fine.2
    intro word member
    rcases List.mem_append.mp member with front | member
    · exact uniform.kind.isWord_qualifiers word front
    · rcases List.mem_cons.mp member with rfl | last
      · exact isWord_of_isIdentifier fine.1
      · obtain rfl := List.mem_singleton.mp last
        exact (isWord_declarator proper.identifier).append_semicolon
  | none =>
    obtain ⟨name, kind, length⟩ := uniform
    cases kind with
    | buffer block =>
      obtain ⟨_, named⟩ := proper.ofBlock block rfl
      have identifier := proper.identifier
      rw [named] at identifier
      have members : ProperMembers types.structs block.properties := proper.kind.members
      intro line member
      rcases List.mem_cons.mp member with rfl | inside
      · exact block.plain_header identifier rule
      · have fine : ∀ property ∈ block.properties,
            property.type.name.toList ∈ structNames types.structs ∨
              types.Exempt property.type.name.toList := fun property present =>
          declared.mem_or_exempt_of_known (members.each property present).known
        exact plain_body declared.isIdentifier members.each fine line inside
    | value | struct | sampler | image => cases named

/-! ### All declarations -/

/-- The lines of two parts are the lines of both joined. -/
theorem lines_joinParts {first second : List Text} (whole : ∀ line ∈ first ++ second, Whole line) :
    Text.lines (Stage.joinParts (joinLines first) (joinLines second)) = first ++ second := by
  have wholeFirst : ∀ line ∈ first, Whole line := fun line member =>
    whole line (List.mem_append_left second member)
  have wholeSecond : ∀ line ∈ second, Whole line := fun line member =>
    whole line (List.mem_append_right first member)
  rw [Stage.joinParts]
  by_cases noFirst : first = []
  · simpa [noFirst, joinLines] using lines_joinLines wholeSecond
  have some := joinLines_ne_nil wholeFirst noFirst
  by_cases noSecond : second = []
  · subst noSecond
    rw [List.append_nil, if_neg (by simpa using some)]
    exact lines_joinLines wholeFirst
  · have more := joinLines_ne_nil wholeSecond noSecond
    rw [if_neg (by simpa using some), if_neg (by simpa using more),
      ← joinLines_append noFirst noSecond, lines_joinLines whole]

/-- Proper structs and then proper uniforms are declared in an order in which no struct is named too
early. -/
theorem declaredBeforeUse {types : Types} (declared : types.Proper) {uniforms : Uniforms}
    (proper : uniforms.Proper types) (rule : Memory.Rule) :
    DeclaredBeforeUse
      (Text.lines (Stage.joinParts types.declarations (uniforms.declarations rule))) := by
  have plain : ∀ line ∈ uniforms.uniforms.flatMap (·.declarationLines rule), Plain (fun type =>
      type ∈ structNames types.structs ∨ types.Exempt type) line := by
    intro line member
    obtain ⟨uniform, present, inside⟩ := List.mem_flatMap.mp member
    exact uniform.plain_declarationLines declared (proper.uniforms uniform present) rule line inside
  have opened := declared.openedStructs_structs [] rfl
  have whole : ∀ line ∈ types.structs.flatMap Struct.declarationLines ++
      uniforms.uniforms.flatMap (·.declarationLines rule), Whole line := by
    intro line member
    rcases List.mem_append.mp member with first | second
    · exact declared.whole_declarationLines line first
    · exact (plain line second).whole
  rw [Types.declarations, Uniforms.declarations, lines_joinParts whole, DeclaredBeforeUse,
    openedStructs_append, opened, openedStructs_of_plain plain, List.append_nil]
  refine (declared.orderedFrom_structs [] rfl).append ?_
  rw [opened]
  exact .of_plain plain

/-- Whatever the two sections say, the uniforms are proper under the structs that are read, no
layout of a block meets an unknown struct, and the shader declarations of both name no struct
before its own. -/
theorem Uniforms.proper_and_ordered_ofSection (typesText uniformsText : Text) :
    let types := (Types.ofSection typesText).value
    let uniforms := (Uniforms.ofSection uniformsText types).value
    uniforms.Proper types ∧ ∀ rule,
      (∀ block ∈ uniforms.buffers, Memory.Resolved (block.place rule types)) ∧
        DeclaredBeforeUse
          (Text.lines (Stage.joinParts types.declarations (uniforms.declarations rule))) := by
  intro types uniforms
  have proper : uniforms.Proper types := Uniforms.proper_ofSection uniformsText types
  refine ⟨proper, fun rule => ⟨fun block member => ?_, ?_⟩⟩
  · exact Memory.resolved_known rule (Types.wellFormed_ofSection typesText) block.name
      fun property present => ((proper.block member).members.each property present).known
  · exact declaredBeforeUse (Types.proper_ofSection typesText) proper rule

end Schema
end ShaderPipeline
