import ShaderPipeline.Proofs.Schema.NestedBodies
import ShaderPipeline.Proofs.Text.Stripping

/-! Structs nested in a struct's body. One closing brace ends the skipping, so a types section
reads as it does without the nested structs exactly when nothing is nested in them. -/

namespace ShaderPipeline.Schema

open Text

/-- The name under which a statement declares a member. -/
def declaredName? (statement : Text) : Option Text := do
  let (_, declarator) ← splitBlank? statement
  let (name, _) ← splitArraySuffix? declarator
  return name

/-- The names under which a line declares members, of whatever types. -/
def declaredNames (line : Text) : List Text := (statements (trim line)).filterMap declaredName?

theorem Property.WrittenOn.declaredNames_eq {property : Property} {line : Text}
    (written : property.WrittenOn line) : declaredNames line = [property.name.toList] := by
  obtain ⟨statement, declarator, alone, split, suffix⟩ := written.declared
  simp [declaredNames, alone, declaredName?, split, suffix]

/-- A struct of the name is declared without the member. -/
def Types.Without (name member : String) (types : Types) : Prop :=
  ∃ struct ∈ types.structs, struct.name = name ∧ struct.property? member = none

/-- A struct that will be declared under the name, so far without the member. -/
structure OpenStruct.Without (name member : String) (types : Types) (current : OpenStruct) :
    Prop where
  named : current.struct.name = name
  valid : current.valid = true
  filled : current.struct.properties ≠ []
  without : current.struct.property? member = none
  fresh : ∀ other ∈ types.structs, other.name ≠ name

namespace TypesReader

/-- Structs that are declared stay declared. -/
theorem keeps_exists (Fine : Struct → Prop) :
    Keeps (fun types => ∃ struct ∈ types.structs, Fine struct) fun _ _ => True where
  opened _ _ _ := trivial
  added _ _ := trivial
  closed kept _ _ _ added := by
    obtain ⟨struct, member, fine⟩ := kept
    exact ⟨struct, by simp [Types.structs_of_add? added, member], fine⟩

private theorem exists_of_lines {Fine : Struct → Prop} {reader : TypesReader}
    (fine : ∃ struct ∈ reader.types.structs, Fine struct) (number : Nat) (texts : List Text) :
    ∃ struct ∈ (reader.lines number texts).value.types.structs, Fine struct :=
  ((keeps_exists Fine).lines ⟨fine, fun _ _ => trivial, fun _ _ => trivial⟩ number texts).types

/-- The struct of the name lacks the member: as it is declared, or as far as it is read. -/
def Lacks (name member : String) (reader : TypesReader) : Prop :=
  reader.types.Without name member ∨
    ∃ current, reader.current? = some current ∧ current.Without name member reader.types

variable {name member : String} {mode : Mode} {reader : TypesReader}

private theorem without_added {types : Types} {current : OpenStruct}
    (without : current.Without name member types) {text : Text}
    (silent : declaredName? text ≠ some member.toList) {struct : Struct}
    (added : addProperty types current.struct text = .ok struct) :
    OpenStruct.Without name member types { current with struct } := by
  obtain ⟨type, declarator, label, length, propertyType, size, split, suffix, _, _, _, pushed⟩ :=
    of_addProperty_ok added
  have other : label.string ≠ member := by
    rintro rfl
    refine silent ?_
    simp [declaredName?, split, suffix, Text.string]
  rw [Struct.push?] at pushed
  split at pushed
  next =>
    cases pushed
    refine ⟨without.named, without.valid, by simp, ?_, without.fresh⟩
    have before := without.without
    rw [Struct.property?] at before ⊢
    simp [before, other]
  next => cases pushed

theorem Lacks.statement (lacks : Lacks name member reader) {text : Text}
    (silent : declaredName? text ≠ some member.toList) (number : Nat) :
    Lacks name member (reader.statement number text).value := by
  rcases lacks with declared | ⟨current, opened, without⟩
  · obtain ⟨current?, read, _⟩ := reader.exists_statement number text
    rw [read]
    exact .inl declared
  · rw [TypesReader.statement, opened]
    dsimp only
    split
    next struct added => exact .inr ⟨_, rfl, without_added without silent added⟩
    next => exact .inr ⟨current, opened, without⟩

theorem Lacks.statements (lacks : Lacks name member reader) {texts : List Text}
    (silent : ∀ text ∈ texts, declaredName? text ≠ some member.toList) (number : Nat) :
    Lacks name member (reader.statements number texts).value := by
  induction texts generalizing reader with
  | nil => exact lacks
  | cons text rest ih =>
    exact ih (lacks.statement (silent text List.mem_cons_self) number)
      fun other later => silent other (List.mem_cons_of_mem text later)

/-- A closing brace declares the struct that is open. -/
theorem mem_close {current : OpenStruct} (opened : reader.current? = some current)
    (valid : current.valid = true) (filled : current.struct.properties ≠ [])
    (fresh : ∀ other ∈ reader.types.structs, other.name ≠ current.struct.name) (number : Nat) :
    current.struct ∈ (reader.close number).value.types.structs := by
  have free : reader.types.find? current.struct.name = none := by
    simpa [Types.find?] using fresh
  have added : reader.types.add? current.struct =
      some ⟨reader.types.structs ++ [current.struct]⟩ := by
    simp [Types.add?, Types.contains, free]
  rw [close, opened]
  simp [valid, filled, added]

/-- A line that does not declare the member leaves the struct without it. -/
theorem Lacks.line (lacks : Lacks name member reader) (stands : StandsIn mode reader) {line : Text}
    (kind : MemberLine line ∨ HeaderLine line ∨ ClosingLine line)
    (silent : member.toList ∉ declaredNames line) (number : Nat) :
    Lacks name member (reader.line number line).value := by
  rcases lacks with declared | ⟨current, opened, without⟩
  · exact .inl (exists_of_lines declared number [line])
  have outside : mode ≠ .between := fun between => by
    rw [stands.outside.mpr between] at opened
    cases opened
  rcases kind with plain | header | closing
  · by_cases skips : reader.skipping = true
    · rw [line_skipped skips plain.unclosed]
      exact .inr ⟨current, opened, without⟩
    · rw [line_member (by simpa using skips) stands.ready plain]
      exact Lacks.statements (.inr ⟨current, opened, without⟩)
        (fun text present names => silent (List.mem_filterMap.mpr ⟨text, present, names⟩)) number
  · rw [line_header_open stands outside header]
    exact .inr ⟨current, opened, without⟩
  · by_cases skips : reader.skipping = true
    · rw [line_closing_skipped skips closing]
      exact .inr ⟨current, opened, without⟩
    · rw [value_line_closing (by simpa using skips) stands.ready closing]
      have declared := mem_close opened without.valid without.filled
        (without.named ▸ without.fresh) number
      exact .inl ⟨current.struct, declared, without.named, without.without⟩

theorem StandsIn.line (stands : StandsIn mode reader) {line : Text}
    (kind : MemberLine line ∨ HeaderLine line ∨ ClosingLine line) (number : Nat) :
    ∃ next, StandsIn next (reader.line number line).value := by
  rcases kind with plain | header | closing
  · exact ⟨mode, stands.member plain number⟩
  · exact ⟨mode.opened, stands.header header number⟩
  · exact ⟨mode.closed, stands.closing closing number⟩

theorem Lacks.lines (lacks : Lacks name member reader) (stands : StandsIn mode reader)
    {lines : List Text}
    (kinds : ∀ line ∈ lines, MemberLine line ∨ HeaderLine line ∨ ClosingLine line)
    (silent : ∀ line ∈ lines, member.toList ∉ declaredNames line) (number : Nat) :
    Lacks name member (reader.lines number lines).value := by
  induction lines generalizing mode reader number with
  | nil => exact lacks
  | cons line rest ih =>
    obtain ⟨kind, others⟩ := List.forall_mem_cons.mp kinds
    obtain ⟨here, later⟩ := List.forall_mem_cons.mp silent
    obtain ⟨next, after⟩ := stands.line kind number
    exact ih (lacks.line stands kind here number) after others later (number + 1)

/-- A body that is not shallow closes the struct it stands in. -/
theorem without_of_deep {body : Body} (lacks : Lacks name member reader)
    (stands : StandsIn .inside reader) (written : body.Written) (deep : ¬ body.Shallow)
    (silent : ∀ line ∈ body.lines, member.toList ∉ declaredNames line) (number : Nat) :
    (reader.lines number body.lines).value.types.Without name member := by
  have after := stands.body written number
  rw [Body.mode_inside_of_not_shallow deep] at after
  rcases lacks.lines stands written.cases silent number with declared | ⟨current, opened, _⟩
  · exact declared
  · rw [after.outside.mpr rfl] at opened
    cases opened

end TypesReader

/-! ### Lines around a body -/

/-- A header's line, with the name that stands in it and what follows its brace if it has one. -/
structure Heads (name : Text) (body? : Option Text) (line : Text) : Prop where
  keyword : (words line).head? = some TypesReader.keyword
  split : splitHeader ((trim line).drop TypesReader.keyword.length) = (name, body?)

/-- Lines that open a struct: a header that ends in its brace, or one and a brace behind it. -/
inductive Opens (name : Text) : List Text → Prop
  | together {line : Text} (heads : Heads name (some []) line) : Opens name [line]
  | apart {line brace : Text} (heads : Heads name none line) (opening : trim brace = ['\x7b']) :
    Opens name [line, brace]

namespace TypesReader

/-- A reader behind the header of a struct, which is kept if it can be. -/
def opened (structs : List Struct) (name : String) (header : Nat) : TypesReader :=
  ⟨⟨structs⟩, some ⟨.empty name, header, (nameProblem? ⟨structs⟩ name.toList).isNone⟩, none, false⟩

variable {structs : List Struct} {name : String}

private theorem stands_opened (structs : List Struct) (name : String) (header : Nat) :
    StandsIn .inside (opened structs name header) :=
  ⟨rfl, iff_of_false nofun nofun, iff_of_false nofun nofun⟩

private theorem opened_eq_inside {struct : Struct} (proper : struct.ProperAfter structs)
    (fresh : ∀ other ∈ structs, other.name ≠ struct.name) (header : Nat) :
    opened structs struct.name header = inside structs header (.empty struct.name) := by
  have absent : (⟨structs⟩ : Types).contains struct.name = false := by
    simpa [Types.contains, Types.find?] using fresh
  have fine : nameProblem? ⟨structs⟩ struct.name.toList = none := by
    refine nameProblem?_eq_none proper.identifier ?_ ?_ <;>
      rw [Text.string, String.ofList_toList]
    · exact proper.notBuiltIn
    · exact absent
  rw [opened, fine]
  rfl

/-- Behind its first member's line, a struct lacks the others. -/
theorem lacks_line_first {struct : Struct} (earlier : (⟨structs⟩ : Types).Proper)
    (proper : struct.ProperAfter structs) (fresh : ∀ other ∈ structs, other.name ≠ struct.name)
    {first : Property} {rest : List Property} (split : struct.properties = first :: rest)
    {line : Text} (written : first.WrittenOn line) {member : String} (apart : first.name ≠ member)
    (header number : Nat) :
    ∃ reader, (inside structs header (.empty struct.name)).line number line = pure reader ∧
      StandsIn .inside reader ∧ Lacks struct.name member reader := by
  have room : (Struct.empty struct.name).size +
      Types.tightSize ⟨structs⟩ first.type * first.length ≤ wordMax := by
    have bounded := proper.bounded
    rw [proper.size, split, Types.tightTotal] at bounded
    have none : (Struct.empty struct.name).size = 0 := rfl
    omega
  have member := proper.members.each first (by simp [split])
  refine ⟨_, line_property earlier member rfl room written header number, stands_inside .., ?_⟩
  refine .inr ⟨_, rfl, rfl, rfl, by simp, ?_, fresh⟩
  simpa [Struct.empty, Struct.property?] using apart

private theorem value_line_heads {line : Text} {body? : Option Text}
    (heads : Heads name.toList body? line) (number : Nat) :
    ((between structs).line number line).value = body?.elim
      { opened structs name number with
        current? := none
        pending? := (opened structs name number).current? }
      fun text => ((opened structs name number).body number text).value := by
  have named : Text.string name.toList = name := String.ofList_toList
  obtain ⟨others, first⟩ := List.head?_eq_some_iff.mp heads.keyword
  rw [line_eq_declaration rfl rfl rfl, declaration_eq_header rfl (by rw [words_trim, first]),
    value_header, heads.split]
  dsimp only
  rw [named]
  cases body? <;> rfl

/-- The lines that open a struct leave the reader inside it. -/
theorem value_lines_opens {opening : List Text} (opens : Opens name.toList opening)
    (number : Nat) :
    ((between structs).lines number opening).value = opened structs name number := by
  cases opens with
  | together heads =>
    rw [lines, Logged.value_bind, value_line_heads heads]
    rfl
  | apart heads brace =>
    rw [lines, Logged.value_bind, value_line_heads heads, lines, Logged.value_bind, line, brace]
    rfl

/-- Carriage returns at the ends of lines are blanks as others. -/
theorem lines_map_dropReturn (reader : TypesReader) (number : Nat) (texts : List Text) :
    reader.lines number (texts.map dropReturn) = reader.lines number texts := by
  induction texts generalizing reader number with
  | nil => rfl
  | cons text rest ih =>
    have same : reader.line number (dropReturn text) = reader.line number text := by
      rw [line, line, trim_dropReturn]
    rw [List.map_cons, lines, lines, same]
    congr 1
    funext after
    exact ih after (number + 1)

end TypesReader

/-- What stands around the body of a struct in a types section. -/
structure Frame where
  before : List Text
  opening : List Text
  closing : Text
  after : Text

namespace Frame

/-- The section with the lines of a body. -/
def around (frame : Frame) (body : List Text) : Text :=
  endLines (frame.before ++ (frame.opening ++ (body ++ [frame.closing]))) ++ frame.after

/-- The frame opens a struct of the name behind the structs it declares, and closes it. -/
structure OpensBehind (frame : Frame) (structs : List Struct) (name : String) : Prop where
  before : (TypesReader.start.lines 1 frame.before).value = TypesReader.between structs
  heads : Opens name.toList frame.opening
  closes : ClosingLine frame.closing
  single : ∀ line ∈ frame.before ++ (frame.opening ++ [frame.closing]), '\n' ∉ line

variable {frame : Frame} {structs : List Struct} {name : String}

theorem OpensBehind.proper (opens : frame.OpensBehind structs name) :
    (⟨structs⟩ : Types).Proper := by
  have read := (TypesReader.keeps_proper.lines (.start .empty) 1 frame.before).types
  rwa [opens.before] at read

theorem value_ofSection (opens : frame.OpensBehind structs name) {body : List Text}
    (single : ∀ line ∈ body, '\n' ∉ line) :
    (Types.ofSection (frame.around body)).value =
      ((TypesReader.opened structs name (1 + frame.before.length)).lines
        (1 + frame.before.length + frame.opening.length)
        (body ++ frame.closing :: Text.lines frame.after)).value.types := by
  have whole : ∀ line ∈ frame.before ++ (frame.opening ++ (body ++ [frame.closing])),
      '\n' ∉ line := by
    have around := opens.single
    simp only [List.mem_append] at around ⊢
    grind
  rw [Types.ofSection, Logged.value_bind, TypesReader.value_finish, around,
    lines_endLines_append whole, TypesReader.lines_append, TypesReader.lines_map_dropReturn,
    List.length_map, ← TypesReader.lines_append, List.append_assoc, TypesReader.lines_append,
    Logged.value_bind, opens.before, List.append_assoc, TypesReader.lines_append,
    Logged.value_bind, TypesReader.value_lines_opens opens.heads, List.append_assoc,
    List.singleton_append]

end Frame

/-- A body that writes the members of a struct, one on a line, with nested structs between them. -/
structure Struct.WrittenAs (struct : Struct) (structs : List Struct) (body : Body) : Prop where
  proper : struct.ProperAfter structs
  fresh : ∀ other ∈ structs, other.name ≠ struct.name
  members : List.Forall₂ Property.WrittenOn struct.properties body.own
  between : ∃ (first : Text) (middle : Body) (last : Text), body = .member first (middle.snoc last)

/-- The members behind the first one and before the last one stand on the lines between. -/
theorem Struct.WrittenAs.cases {struct : Struct} {structs : List Struct} {body : Body}
    (writes : struct.WrittenAs structs body) :
    ∃ (first : Property) (others : List Property) (last : Property) (start : Text) (middle : Body)
      (final : Text), struct.properties = first :: others ++ [last] ∧
      body = .member start (middle.snoc final) ∧ first.WrittenOn start ∧
      List.Forall₂ Property.WrittenOn others middle.own := by
  obtain ⟨start, middle, final, rfl⟩ := writes.between
  have members := writes.members
  rw [Body.own, Body.own_snoc] at members
  obtain ⟨first, rest, here, behind, split⟩ := List.forall₂_cons_right_iff.mp members
  have others := List.forall₂_take_append rest middle.own [final] behind
  obtain ⟨last, none, _, ended, tail⟩ :=
    List.forall₂_cons_right_iff.mp (List.forall₂_drop_append rest middle.own [final] behind)
  obtain rfl := List.forall₂_nil_right_iff.mp ended
  refine ⟨first, _, last, start, middle, final, ?_, rfl, here, others⟩
  rw [split, List.cons_append, ← tail, List.take_append_drop]

theorem Property.exists_writtenOn {properties : List Property} {lines : List Text}
    (written : List.Forall₂ Property.WrittenOn properties lines) :
    ∀ line ∈ lines, ∃ property ∈ properties, property.WrittenOn line := by
  induction written with
  | nil => exact fun _ absent => (nomatch absent)
  | @cons property line properties lines here _ ih =>
    intro other member
    rcases List.mem_cons.mp member with rfl | later
    · exact ⟨property, List.mem_cons_self, here⟩
    · obtain ⟨found, present, there⟩ := ih other later
      exact ⟨found, List.mem_cons_of_mem property present, there⟩

namespace Types

variable {frame : Frame} {structs : List Struct} {struct : Struct} {body : Body}

/-- A shallow body reads as its members alone, and so does all that follows it. -/
theorem ofSection_shallow {name : String} (opens : frame.OpensBehind structs name)
    (written : body.Written) (single : ∀ line ∈ body.lines, '\n' ∉ line)
    (shallow : body.Shallow) :
    (Types.ofSection (frame.around body.lines)).value =
      (Types.ofSection (frame.around body.own)).value := by
  have stands := TypesReader.stands_opened structs name (1 + frame.before.length)
  have alike := TypesReader.Alike.shallow written shallow stands (TypesReader.alike_refl _)
  rw [frame.value_ofSection opens single,
    frame.value_ofSection opens fun line member => single line (body.own_subset member),
    TypesReader.lines_append, TypesReader.lines_append, Logged.value_bind, Logged.value_bind]
  exact ((alike _ _).lines _ _ _).types

/-- Without the nested structs, the struct is declared with all of its members. -/
theorem mem_ofSection_own (opens : frame.OpensBehind structs struct.name)
    (writes : struct.WrittenAs structs body) (single : ∀ line ∈ body.own, '\n' ∉ line) :
    struct ∈ (Types.ofSection (frame.around body.own)).value.structs := by
  have opened : (TypesReader.inside structs (1 + frame.before.length) struct).current? =
      some ⟨struct, 1 + frame.before.length, true⟩ := rfl
  have closed := TypesReader.mem_close opened rfl writes.proper.filled writes.fresh
  rw [frame.value_ofSection opens single,
    TypesReader.opened_eq_inside writes.proper writes.fresh, TypesReader.lines_append,
    Logged.value_bind, TypesReader.lines_members opens.proper writes.proper writes.members,
    TypesReader.lines, Logged.value_bind,
    TypesReader.value_line_closing rfl rfl opens.closes]
  obtain ⟨read, member, rfl⟩ := TypesReader.exists_of_lines ⟨struct, closed _, rfl⟩ _ _
  exact member

/-- Behind a body that is not shallow, the struct has been closed and lacks its last member. -/
theorem exists_without_of_deep (opens : frame.OpensBehind structs struct.name)
    (written : body.Written) (single : ∀ line ∈ body.lines, '\n' ∉ line)
    (writes : struct.WrittenAs structs body)
    (silent : ∀ property ∈ struct.properties.getLast?, ∀ line ∈ body.inserted,
      property.name.toList ∉ declaredNames line) (deep : ¬ body.Shallow) :
    ∃ last ∈ struct.properties,
      (Types.ofSection (frame.around body.lines)).value.Without struct.name last.name := by
  have proper := writes.proper
  obtain ⟨first, others, last, start, middle, final, split, rfl, here, between⟩ := writes.cases
  have distinct := proper.members.names
  rw [split] at silent distinct
  have apart : ∀ property ∈ first :: others, property.name ≠ last.name := by
    intro property member same
    rw [List.map_append, List.nodup_append] at distinct
    exact distinct.2.2 property.name (List.mem_map_of_mem member) last.name (by simp) same
  have quiet : ∀ line ∈ middle.lines, last.name.toList ∉ declaredNames line := by
    intro line member declares
    rcases Body.mem_own_or_inserted member with own | inserted
    · obtain ⟨property, present, written⟩ := Property.exists_writtenOn between line own
      rw [written.declaredNames_eq, List.mem_singleton] at declares
      exact apart property (List.mem_cons_of_mem first present) (String.toList_inj.mp declares).symm
    · refine silent last List.getLast?_concat line ?_ declares
      rwa [Body.inserted, Body.inserted_snoc]
  obtain ⟨_, inner⟩ := written
  rw [Body.written_snoc] at inner
  rw [Body.Shallow, Body.shallow_snoc] at deep
  have opened := TypesReader.lacks_line_first opens.proper proper writes.fresh split here
    (apart first List.mem_cons_self)
  obtain ⟨reader, read, stands, lacks⟩ := opened (1 + frame.before.length)
    (1 + frame.before.length + frame.opening.length)
  refine ⟨last, by simp [split], ?_⟩
  rw [frame.value_ofSection opens single, TypesReader.opened_eq_inside proper writes.fresh,
    Body.lines, Body.lines_snoc, List.cons_append, TypesReader.lines, read, pure_bind,
    List.append_assoc, TypesReader.lines_append, Logged.value_bind]
  exact TypesReader.exists_of_lines (TypesReader.without_of_deep lacks stands inner.1 deep quiet _)
    _ _

/-- A types section reads as it does without the structs nested in one of its structs if nothing is
nested in them. If something is, they are not skipped to their closing braces: where they stand
between members of a proper struct and do not repeat the last one, the section reads otherwise. -/
theorem ofSection_nested (opens : frame.OpensBehind structs struct.name) (written : body.Written)
    (single : ∀ line ∈ body.lines, '\n' ∉ line) :
    (body.Shallow → (Types.ofSection (frame.around body.lines)).value =
      (Types.ofSection (frame.around body.own)).value) ∧
    (struct.WrittenAs structs body →
      struct ∈ (Types.ofSection (frame.around body.own)).value.structs ∧
      ((∀ property ∈ struct.properties.getLast?, ∀ line ∈ body.inserted,
          property.name.toList ∉ declaredNames line) →
        ((Types.ofSection (frame.around body.lines)).value =
          (Types.ofSection (frame.around body.own)).value ↔ body.Shallow))) := by
  have shallow := ofSection_shallow opens written single
  refine ⟨shallow, fun writes => ?_⟩
  have declared := mem_ofSection_own opens writes
    fun line member => single line (body.own_subset member)
  refine ⟨declared, fun silent => ⟨fun same => ?_, shallow⟩⟩
  by_contra deep
  obtain ⟨last, present, other, member, named, without⟩ :=
    exists_without_of_deep opens written single writes silent deep
  rw [same] at member
  have valid := wellFormed_ofSection (frame.around body.own)
  have found := valid.find? member
  rw [named, valid.find? declared] at found
  cases found
  rw [Struct.property?, List.find?_eq_none] at without
  exact without last present (by simp)

/-! ### A struct between two others -/

/-- The struct before. -/
def spotStruct : Struct := ⟨"spot", [⟨"position", .value (.vector .float 3), 1⟩], 12⟩

def stageStruct : Struct :=
  ⟨"stage", [⟨"ambient", .value (.vector .float 3), 1⟩, ⟨"spots", .struct "spot", 4⟩], 60⟩

def stageFrame : Frame where
  before := ["struct spot \x7b".toList, "  vec3 position;".toList, "\x7d;".toList]
  opening := ["struct stage".toList, "\x7b".toList]
  closing := "\x7d;".toList
  after := "struct view \x7b\nstage main;\n\x7d".toList

/-- The members of the struct, with one nested between them. -/
def stageBody (inside : Body) : Body :=
  .member "  vec3 ambient;".toList (.nested "  struct inner \x7b".toList inside "  \x7d;".toList
    (.member "  spot spots[4];".toList .nil))

/-- A body with one member. -/
def countBody : Body := .member "    int count;".toList .nil

private theorem stageFrame_opensBehind : stageFrame.OpensBehind [spotStruct] stageStruct.name where
  before := by decide +kernel
  heads := .apart ⟨by decide, by decide⟩ (by decide)
  closes := rfl
  single := by decide

private theorem written_stageBody {inside : Body} (written : inside.Written) :
    (stageBody inside).Written :=
  ⟨⟨by decide, by decide, by decide⟩, ⟨by decide, by decide, by decide⟩, written, rfl,
    ⟨by decide, by decide, by decide⟩, trivial⟩

private theorem written_countBody : countBody.Written :=
  ⟨⟨by decide, by decide, by decide⟩, trivial⟩

private theorem ofSection_stageBody_own (inside : Body) :
    (Types.ofSection (stageFrame.around (stageBody inside).own)).value =
      ⟨[spotStruct, stageStruct, ⟨"view", [⟨"main", .struct "stage", 1⟩], 60⟩]⟩ := by
  change (Types.ofSection (stageFrame.around
    ["  vec3 ambient;".toList, "  spot spots[4];".toList])).value = _
  decide +kernel

private theorem stageStruct_writtenAs (inside : Body) :
    stageStruct.WrittenAs [spotStruct] (stageBody inside) where
  proper := by
    have proper := proper_ofSection (stageFrame.around (stageBody inside).own)
    rw [ofSection_stageBody_own] at proper
    exact proper.declared [spotStruct] stageStruct _ rfl
  fresh := by decide
  members :=
    .cons ⟨⟨by decide, by decide, by decide⟩, "vec3 ambient".toList, "ambient".toList, by decide⟩
      (.cons ⟨⟨by decide, by decide, by decide⟩, "spot spots[4]".toList, "spots[4]".toList,
        by decide⟩ .nil)
  between := ⟨_, .nested "  struct inner \x7b".toList inside "  \x7d;".toList .nil, _, rfl⟩

theorem ofSection_nested_stage :
    stageFrame.OpensBehind [spotStruct] stageStruct.name ∧ (stageBody countBody).Written ∧
      (∀ line ∈ (stageBody countBody).lines, '\n' ∉ line) ∧ (stageBody countBody).Shallow ∧
      stageStruct.WrittenAs [spotStruct] (stageBody countBody) ∧
      (Types.ofSection (stageFrame.around (stageBody countBody).lines)).value =
        (Types.ofSection (stageFrame.around (stageBody countBody).own)).value := by
  have written := written_stageBody written_countBody
  have single : ∀ line ∈ (stageBody countBody).lines, '\n' ∉ line := by decide
  have writes := stageStruct_writtenAs countBody
  have shallow : (stageBody countBody).Shallow := ⟨trivial, trivial⟩
  have nested := ofSection_nested stageFrame_opensBehind written single
  have same := (nested.2 writes).2 (by decide)
  exact ⟨stageFrame_opensBehind, written, single, shallow, writes, same.mpr shallow⟩

/-- A struct that is nested in a nested one: what follows it is read into the outermost struct,
which the next brace closes, and the members behind that are lost. -/
theorem nestedTwice_loses_member :
    let body := stageBody (.nested "    struct innermost \x7b".toList countBody "    \x7d".toList
      (.member "    float weight;".toList .nil))
    stageFrame.OpensBehind [spotStruct] stageStruct.name ∧ body.Written ∧
      stageStruct.WrittenAs [spotStruct] body ∧
      (Types.ofSection (stageFrame.around body.own)).value =
        ⟨[spotStruct, stageStruct, ⟨"view", [⟨"main", .struct "stage", 1⟩], 60⟩]⟩ ∧
      (Types.ofSection (stageFrame.around body.lines)).value =
        ⟨[spotStruct, ⟨"stage", [⟨"ambient", .value (.vector .float 3), 1⟩,
          ⟨"weight", .value .float, 1⟩], 16⟩, ⟨"view", [⟨"main", .struct "stage", 1⟩], 16⟩]⟩ := by
  refine ⟨stageFrame_opensBehind, written_stageBody ⟨⟨by decide, by decide, by decide⟩,
    written_countBody, rfl, ⟨by decide, by decide, by decide⟩, trivial⟩, stageStruct_writtenAs _,
    ofSection_stageBody_own _, ?_⟩
  decide +kernel

end Types

end ShaderPipeline.Schema
