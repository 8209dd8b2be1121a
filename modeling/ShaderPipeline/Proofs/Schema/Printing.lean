import ShaderPipeline.Proofs.Schema.ProperTypes
import ShaderPipeline.Proofs.Text.Lines

/-! The shader declarations of structs and of buffer blocks, line by line: each line spells a few
words, and a member's words are its type and its declarator. -/

namespace ShaderPipeline

open Text

theorem Text.isWord_of_isIdentifier {name : Text} (identifier : isIdentifier name = true) :
    IsWord name where
  filled := ne_nil_of_isIdentifier identifier
  solid c member := isBlank_of_isWordChar (isWordChar_of_mem identifier c member)

theorem Text.isWord_declarator {name : Text} {length : Nat}
    (identifier : isIdentifier name = true) : IsWord (declarator name length) where
  filled := by
    intro empty
    have first := head?_declarator identifier length
    rw [empty] at first
    exact ne_nil_of_isIdentifier identifier (List.head?_eq_none_iff.mp first.symm)
  solid c := isBlank_of_mem_declarator identifier

theorem Text.IsWord.append_semicolon {word : Text} (isWord : IsWord word) :
    IsWord (word ++ [';']) where
  filled := by simp
  solid c member := by
    rcases List.mem_append.mp member with inside | last
    · exact isWord.solid c inside
    · obtain rfl := List.mem_singleton.mp last
      rfl

/-- Spaces and then words. -/
structure Text.Spells (line : Text) (words : List Text) : Prop where
  proper : ∀ word ∈ words, IsWord word
  spelled : ∃ gap : Nat, line = List.replicate gap ' ' ++ joinWords words

theorem Text.Spells.words_eq {line : Text} {all : List Text} (spells : line.Spells all) :
    words line = all := by
  obtain ⟨gap, rfl⟩ := spells.spelled
  rw [words_append_blank (isBlank_of_mem_spaces gap), words_joinWords spells.proper]

theorem Text.Spells.whole {line last : Text} (all : List Text)
    (spells : line.Spells (all ++ [last])) : Whole line := by
  obtain ⟨gap, rfl⟩ := spells.spelled
  obtain ⟨filled, solid⟩ := spells.proper last (by simp)
  have final := List.getLast?_eq_some_getLast filled
  have ended := getLast?_joinWords all filled
  rw [final] at ended
  constructor
  · intro member
    rcases List.mem_append.mp member with space | inside
    · cases List.eq_of_mem_replicate space
    · rcases of_mem_joinWords inside with other | ⟨word, present, letter⟩
      · cases other
      · cases (spells.proper word present).solid '\n' letter
  · intro empty
    rw [(List.append_eq_nil_iff.mp empty).2] at ended
    cases ended
  · intro c last
    rw [List.getLast?_append, ended] at last
    obtain rfl := Option.some.inj last
    exact solid _ (List.getLast_mem filled)

namespace Schema

/-- The words of a member's declaration. -/
def Property.words (property : Property) : List Text :=
  [property.type.name.toList, declarator property.name.toList property.length ++ [';']]

theorem Property.declaration_eq (property : Property) :
    property.declaration = joinWords property.words := by
  rw [declaration, words, declarator]
  split <;> simp [joinWords, List.intercalate, ToString.toString]

/-- A member's declaration without the semicolon at its end. -/
def Property.statement (property : Property) : Text :=
  joinWords [property.type.name.toList, declarator property.name.toList property.length]

theorem Property.statement_eq (property : Property) :
    property.statement = property.type.name.toList ++
      ' ' :: declarator property.name.toList property.length := by
  simp [statement, joinWords, List.intercalate]

theorem Property.declaration_eq_statement (property : Property) :
    property.declaration = property.statement ++ [';'] := by
  simp [declaration_eq, words, statement, joinWords, List.intercalate]

/-- The words of a struct's header. -/
def headerWords (name : String) : List Text := ["struct".toList, name.toList, ['\x7b']]

theorem header_eq (name : String) :
    s!"struct {name} \x7b".toList = joinWords (headerWords name) := by
  simp [headerWords, joinWords, List.intercalate, ToString.toString]

private theorem mem_blockLines {header line : Text} {properties : List Property} :
    line ∈ blockLines header properties ↔ line = header ∨
      (∃ property ∈ properties, line = "    ".toList ++ property.declaration) ∨
      line = "\x7d;".toList := by
  simp [blockLines, eq_comm]

section Lines

variable {structs : List Struct}
  (named : ∀ struct ∈ structs, Text.isIdentifier struct.name.toList = true)

theorem spells_closing : Text.Spells "\x7d;".toList ["\x7d;".toList] where
  proper := by
    intro word member
    obtain rfl := List.mem_singleton.mp member
    decide
  spelled := ⟨0, rfl⟩

include named

theorem Property.isWord_words {property : Property} (proper : property.ProperIn structs) :
    ∀ word ∈ property.words, IsWord word := by
  intro word member
  rcases List.mem_cons.mp member with rfl | member
  · exact isWord_of_isIdentifier (PropertyType.isIdentifier_name named proper.known)
  · obtain rfl := List.mem_singleton.mp member
    exact (isWord_declarator proper.identifier).append_semicolon

/-- A member's declaration is made of letters, digits, spaces and brackets. -/
theorem Property.notMem_statement {property : Property} (proper : property.ProperIn structs)
    {c : Char} (mark : isWordChar c = false) (apart : c ∉ [' ', '[', ']']) :
    c ∉ property.statement := by
  intro member
  rw [statement_eq] at member
  rcases List.mem_append.mp member with inType | member
  · have letters := isWordChar_of_mem (PropertyType.isIdentifier_name named proper.known)
    exact absurd (letters c inType) (by simp [mark])
  · rcases List.mem_cons.mp member with rfl | inName
    · exact apart (by simp)
    · rcases of_mem_declarator proper.identifier inName with letter | rfl | rfl
      · exact absurd letter (by simp [mark])
      · exact apart (by simp)
      · exact apart (by simp)

theorem Property.trim_statement {property : Property} (proper : property.ProperIn structs) :
    trim property.statement = property.statement := by
  have isWords : ∀ word ∈ [property.type.name.toList,
      declarator property.name.toList property.length], IsWord word := by
    intro word member
    rcases List.mem_cons.mp member with rfl | member
    · exact isWord_of_isIdentifier (PropertyType.isIdentifier_name named proper.known)
    · obtain rfl := List.mem_singleton.mp member
      exact isWord_declarator proper.identifier
  exact trim_joinWords isWords (isBlank_of_mem_spaces 0)

theorem Property.spells {property : Property} (proper : property.ProperIn structs) :
    Text.Spells ("    ".toList ++ property.declaration) property.words where
  proper := property.isWord_words named proper
  spelled := ⟨4, by rw [property.declaration_eq]; rfl⟩

end Lines

theorem spells_header {name : String} (identifier : isIdentifier name.toList = true) :
    Text.Spells s!"struct {name} \x7b".toList (headerWords name) where
  proper := by
    intro word member
    rw [headerWords, List.mem_cons, List.mem_cons, List.mem_singleton] at member
    rcases member with rfl | rfl | rfl
    · decide
    · exact isWord_of_isIdentifier identifier
    · decide
  spelled := ⟨0, by rw [header_eq]; rfl⟩

private theorem whole_blockLines {structs : List Struct} {header : Text}
    {properties : List Property}
    (named : ∀ struct ∈ structs, isIdentifier struct.name.toList = true)
    (proper : ∀ property ∈ properties, property.ProperIn structs) (whole : Whole header) :
    ∀ line ∈ blockLines header properties, Whole line := by
  intro line member
  rcases mem_blockLines.mp member with rfl | ⟨property, present, rfl⟩ | rfl
  · exact whole
  · exact Spells.whole [property.type.name.toList]
      (property.spells named (proper property present))
  · exact Spells.whole [] spells_closing

theorem Types.Proper.whole_declarationLines {types : Types} (proper : types.Proper) :
    ∀ line ∈ types.structs.flatMap Struct.declarationLines, Whole line := by
  intro line member
  obtain ⟨struct, present, inside⟩ := List.mem_flatMap.mp member
  obtain ⟨before, after, split, declared⟩ := proper.of_mem present
  exact whole_blockLines (proper.earlier split).isIdentifier declared.members.each
    (Spells.whole ["struct".toList, struct.name.toList]
      (spells_header declared.identifier)) line inside

end Schema
end ShaderPipeline
