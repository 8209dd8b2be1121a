import ShaderPipeline.Proofs.Text.Words
import ShaderPipeline.Proofs.Vertex.SectionReading

/-! Where reading a layout section fails: at a field that its group has no room for. Each reader of
a text, from the words of a group up to the lines of a section, fails where a smaller one does, and
reads the text before that field as the smaller one does. -/

namespace ShaderPipeline.Vertex

/-- The open group has no room for a field, and the fault says so. -/
inductive Builder.Overflows (builder : Builder) (type name width : Text) : Fault → Prop where
  | field {group : PackedGroup} {basic : BasicType} {bits : Nat}
      (opened : builder.group? = some group)
      (read : BasicType.ofName? type.string = some basic) (packable : basic.isPackable = true)
      (named : Text.isIdentifier name = true) (number : Text.decimal? width = some bits)
      (bounded : total PackedField.totalBits group.fields ≤ groupBits)
      (large : PackedGroup.requestedBits basic.count bits >
        groupBits - total PackedField.totalBits group.fields) :
      Overflows builder type name width (.packedOverflow group.name name.string
        (PackedGroup.requestedBits basic.count bits)
        (groupBits - total PackedField.totalBits group.fields))

namespace Reader

/-- Characters that can stand beside a field. -/
def isSeparator (c : Char) : Bool := Text.isBlank c || c == '\x7b' || c == '\x7d'

/-- A text cut around one of its fields. -/
structure Cut (text start gap field rest : Text) : Prop where
  whole : text = start ++ (gap ++ (field ++ rest))
  ended : ∀ c ∈ start.getLast?, Text.isBlank c = false
  blank : ∀ c ∈ gap, Text.isBlank c = true
  left : ∀ c ∈ (start ++ gap).getLast?, isSeparator c = true
  right : ∀ c ∈ rest.head?, isSeparator c = true

/-- Reading the text before some field leads to a group that has no room for the field. -/
def OverflowsIn (read : Text → Attempt Reader) (text : Text) (fault : Fault) : Prop :=
  ∃ start gap field rest, Cut text start gap field rest ∧
    ∃ type name width, Text.words field = [type, name, width] ∧
      ∃ reader, (read start).run.value = .ok reader ∧
        reader.builder.Overflows type name width fault

private theorem isSeparator_of_isBlank {c : Char} (blank : Text.isBlank c = true) :
    isSeparator c = true := by
  simp [isSeparator, blank]

/-! ### Cuts -/

/-- A text can be cut around three of its words. -/
theorem exists_fieldCut {text : Text} {first second : List Text} {type name width : Text}
    (split : Text.words text = first ++ ([type, name, width] ++ second)) :
    ∃ start gap field rest, Cut text start gap field rest ∧ Text.words start = first ∧
      Text.words field = [type, name, width] := by
  obtain ⟨start, tail, rfl, before, after, ended, begun⟩ := Text.exists_cut split
  obtain ⟨parts, rest, rfl, three, -, -, apart⟩ := Text.exists_cut after
  have filled : parts ≠ [] := by
    rintro rfl
    cases three
  have blank : ∀ c ∈ parts.takeWhile Text.isBlank, Text.isBlank c = true := fun c =>
    Text.isBlank_of_mem_takeWhile
  have whole := @List.takeWhile_append_dropWhile _ Text.isBlank parts
  refine ⟨start, parts.takeWhile Text.isBlank, parts.dropWhile Text.isBlank, rest,
    ⟨?_, ended, blank, ?_, ?_⟩, before, ?_⟩
  · rw [← List.append_assoc (parts.takeWhile _), whole]
  · intro c last
    by_cases empty : parts.takeWhile Text.isBlank = []
    · have none : start = [] := by
        by_cases some : start = []
        · exact some
        · obtain ⟨head, others, rfl⟩ := List.exists_cons_of_ne_nil filled
          have first := begun some head rfl
          simp [first] at empty
      simp [none, empty] at last
    · rw [List.getLast?_append, List.getLast?_eq_some_getLast empty] at last
      obtain rfl := Option.some.inj last
      exact isSeparator_of_isBlank (blank _ (List.getLast_mem empty))
  · intro c next
    exact isSeparator_of_isBlank (apart filled c next)
  · rw [← three, ← Text.words_append_blank blank, whole]

theorem Cut.append {text start gap field rest trail : Text} (cut : Cut text start gap field rest)
    (apart : ∀ c ∈ trail.head?, isSeparator c = true) :
    Cut (text ++ trail) start gap field (rest ++ trail) where
  whole := by simp [cut.whole]
  ended := cut.ended
  blank := cut.blank
  left := cut.left
  right := by
    cases rest with
    | nil => exact apart
    | cons c others => exact cut.right

/-- Where one computation answers, the other answers with the same builder. -/
def Builds (first second : Attempt Reader) : Prop :=
  ∀ reader, first.run.value = .ok reader →
    ∃ other, second.run.value = .ok other ∧ other.builder = reader.builder

theorem Builds.of_eq {first second : Attempt Reader} (same : second.run.value = first.run.value) :
    Builds first second :=
  fun reader answered => ⟨reader, by rw [same, answered], rfl⟩

/-- What is true of reading a text holds behind a brace. -/
theorem OverflowsIn.behind {read other : Text → Attempt Reader} {text : Text} {fault : Fault}
    (inside : OverflowsIn read text fault) (lead : Text)
    (brace : ∀ c ∈ lead.getLast?, c = '\x7b' ∨ c = '\x7d')
    (same : ∀ start, start <+: text → Builds (read start) (other (lead ++ start))) :
    OverflowsIn other (lead ++ text) fault := by
  have solid : ∀ c ∈ lead.getLast?, Text.isBlank c = false ∧ isSeparator c = true := by
    intro c last
    rcases brace c last with rfl | rfl <;> exact ⟨rfl, rfl⟩
  obtain ⟨start, gap, field, rest, cut, type, name, width, three, reader, reached, overflows⟩ := inside
  obtain ⟨next, answered, built⟩ := same start ⟨_, cut.whole.symm⟩ reader reached
  refine ⟨lead ++ start, gap, field, rest, ⟨?_, ?_, cut.blank, ?_, cut.right⟩, type, name, width,
    three, next, answered, built ▸ overflows⟩
  · simp [cut.whole]
  · intro c last
    rw [List.getLast?_append] at last
    cases ends : start.getLast? with
    | some final =>
      rw [ends] at last
      exact cut.ended c (by rwa [ends])
    | none =>
      rw [ends] at last
      exact (solid c last).1
  · intro c last
    rw [List.append_assoc, List.getLast?_append] at last
    cases ends : (start ++ gap).getLast? with
    | some final =>
      rw [ends] at last
      exact cut.left c (by rwa [ends])
    | none =>
      rw [ends] at last
      exact (solid c last).2

/-- Blanks at the ends of a text do not matter to what trims it. -/
theorem OverflowsIn.of_trim {read other : Text → Attempt Reader} {text : Text} {fault : Fault}
    (inside : OverflowsIn read (Text.trim text) fault)
    (same : ∀ start, (other start).run.value = (read (Text.trim start)).run.value) :
    OverflowsIn other text fault := by
  obtain ⟨lead, trail, whole, before, after, solid⟩ := Text.exists_trim text
  obtain ⟨start, gap, field, rest, cut, type, name, width, three, reader, reached, overflows⟩ := inside
  have apart : ∀ c ∈ trail.head?, isSeparator c = true := fun c first =>
    isSeparator_of_isBlank (after c (List.mem_of_mem_head? first))
  have wider := cut.append apart
  by_cases empty : start = []
  · subst empty
    have blank : ∀ c ∈ lead ++ gap, Text.isBlank c = true := fun c member =>
      (List.mem_append.mp member).elim (before c) (cut.blank c)
    refine ⟨[], lead ++ gap, field, rest ++ trail, ⟨?_, by simp, blank, ?_, wider.right⟩, type, name,
      width, three, reader, ?_, overflows⟩
    · rw [whole, cut.whole]
      simp
    · exact fun c last => isSeparator_of_isBlank (blank c (List.mem_of_getLast? last))
    · rw [same]
      exact reached
  · have kept {other : Text} (filled : other ≠ []) : (lead ++ other).getLast? = other.getLast? := by
      rw [List.getLast?_append, List.getLast?_eq_some_getLast filled]
      rfl
    have first : ∀ c ∈ start.head?, Text.isBlank c = false := by
      obtain ⟨head, others, rfl⟩ := List.exists_cons_of_ne_nil empty
      rw [cut.whole] at solid
      exact solid
    refine ⟨lead ++ start, gap, field, rest ++ trail, ⟨?_, ?_, cut.blank, ?_, wider.right⟩, type, name,
      width, three, reader, ?_, overflows⟩
    · rw [whole, cut.whole]
      simp
    · rw [kept empty]
      exact cut.ended
    · rw [List.append_assoc, kept (by simp [empty])]
      exact cut.left
    · have trimmed := Text.trim_eq_of_blank_ends before first cut.ended (List.forall_mem_nil _)
      rw [List.append_nil] at trimmed
      rw [same, trimmed, reached]

/-! ### Readers -/

/-- Reading nothing leaves the builder as it is. -/
theorem builds_content_nil (reader : Reader) (line : Nat) :
    Builds (reader.content line []) (pure reader) := by
  intro next read
  refine ⟨reader, rfl, ?_⟩
  rw [value_content] at read
  split at read
  · rw [value_statement_nil] at read
    cases read
    rfl
  · dsimp only [Text.dropStart?] at read
    rw [value_statement_nil] at read
    cases read
    rfl

private theorem field_overflows {reader : Reader} (valid : reader.builder.WellFormed) {line : Nat}
    {fault : Fault} {type name width : Text}
    (failed : (reader.field line type name width).run.value = .error fault) :
    reader.builder.Overflows type name width fault := by
  rcases reader.field_cases line type name width with
    same | ⟨basic, bits, read, packable, named, number, positive, -, passed⟩
  · rw [same] at failed
    cases failed
  · rw [passed, Builder.value_addPackedField, if_neg positive] at failed
    cases opened : reader.builder.group? with
    | none => rw [opened] at failed; cases failed
    | some group =>
      rw [opened] at failed
      dsimp only at failed
      split at failed
      · cases failed
      · rw [PackedGroup.value_push] at failed
        split at failed
        · cases failed
        next large =>
          cases failed
          have exceeds := mt (PackedGroup.requestedBits_le_iff basic.count bits
            (Nat.sub_le groupBits group.usedBits)).mp large
          have bounded := (valid.opens group opened).wellFormed.bounded
          exact .field opened read packable named number bounded (Nat.lt_of_not_le exceeds)

private theorem fields_overflows {line : Nat} {fault : Fault} :
    ∀ {reader : Reader} (tokens : List Text), reader.builder.WellFormed →
    (reader.fields line tokens).run.value = .error fault →
      ∃ first type name width second next, tokens = first ++ ([type, name, width] ++ second) ∧
        (reader.fields line first).run.value = .ok next ∧
        next.builder.Overflows type name width fault
  | reader, type :: name :: width :: rest, valid, failed => by
    rw [fields] at failed
    rcases Logged.of_bind_error failed with here | ⟨middle, passed, later⟩
    · exact ⟨[], type, name, width, rest, reader, rfl, rfl, field_overflows valid here⟩
    · have kept := Builder.keeps_wellFormed.field valid passed
      obtain ⟨first, others⟩ := fields_overflows rest kept later
      obtain ⟨type', name', width', second, next, rfl, read, overflows⟩ := others
      refine ⟨type :: name :: width :: first, type', name', width', second, next, rfl, ?_, overflows⟩
      rw [fields, Logged.value_run_bind, passed]
      exact read
  | _, [], _, failed | _, [_], _, failed | _, [_, _], _, failed => by cases failed

section Readers

variable {reader : Reader} (valid : reader.builder.WellFormed) {line : Nat} {fault : Fault}
include valid

private theorem groupBody_overflows {body : Text}
    (failed : (reader.groupBody line body).run.value = .error fault) :
    OverflowsIn (reader.groupBody line) body fault := by
  obtain ⟨inner, trail, rfl, inside, absent, closes⟩ := exists_inner body
  rw [value_groupBody] at failed
  dsimp only at failed
  rw [inside] at failed
  split at failed
  · cases failed
  next intact =>
    cases read : (reader.fields line (Text.words inner)).run.value with
    | ok last => rw [read] at failed; cases failed
    | error other =>
      rw [read] at failed
      cases failed
      obtain ⟨first, type, name, width, second, next, split, reached, overflows⟩ :=
        fields_overflows _ valid read
      obtain ⟨start, gap, field, rest, cut, rfl, three⟩ := exists_fieldCut split
      have apart : ∀ c ∈ trail.head?, isSeparator c = true := by
        intro c head
        rw [closes c head]
        rfl
      have opened : '\x7d' ∉ start := by
        intro present
        exact absent (cut.whole ▸ List.mem_append_left _ present)
      have uninterrupted : ¬ (Text.words start).any interrupts = true := by
        intro some
        rw [split, List.any_append, some, Bool.true_or] at intact
        exact intact rfl
      refine ⟨start, gap, field, rest ++ trail, cut.append apart, type, name, width, three, next, ?_,
        overflows⟩
      rw [value_groupBody, Text.splitAt?_eq_none_iff.mpr opened]
      dsimp only [Option.map_none, Option.getD_none]
      rw [if_neg uninterrupted, reached]
      rfl

private theorem declaration_overflows {text : Text}
    (failed : (reader.declaration line text).run.value = .error fault) :
    OverflowsIn (reader.declaration line) text fault := by
  rw [value_declaration] at failed
  split at failed
  next after packed =>
    rw [value_header] at failed
    cases split : Text.splitAt? '\x7b' after with
    | none => rw [split] at failed; cases failed
    | some parts =>
      obtain ⟨head, body⟩ := parts
      rw [split] at failed
      dsimp only [Option.map_some, Option.getD_some] at failed
      obtain ⟨rfl, apart⟩ := afterPacked?_eq_some_iff.mp packed
      obtain ⟨rfl, absent⟩ := Text.splitAt?_eq_some split
      have whole (rest : Text) : "packed".toList ++ (head ++ '\x7b' :: rest) =
          ("packed".toList ++ head ++ ['\x7b']) ++ rest := by simp
      rw [whole]
      have opens := Builder.keeps_wellFormed.openGroup valid (groupName? head) line
      refine (groupBody_overflows opens failed).behind _ (by rw [List.getLast?_concat]; simp)
        fun start _ => .of_eq ?_
      have opened : afterPacked? ("packed".toList ++ (head ++ '\x7b' :: start)) =
          some (head ++ '\x7b' :: start) := by
        refine afterPacked?_eq_some_iff.mpr ⟨rfl, fun c first => apart c ?_⟩
        cases head <;> exact first
      rw [← whole, value_declaration, opened]
      dsimp only
      rw [value_header, Text.splitAt?_append_cons absent]
      rfl
  next => cases failed

private theorem statement_overflows {text : Text}
    (failed : (reader.statement line text).run.value = .error fault) :
    OverflowsIn (reader.statement line) text fault := by
  unfold statement at failed ⊢
  split at failed
  next packing =>
    simp only [packing, ↓reduceIte]
    exact groupBody_overflows valid failed
  next packing =>
    simp only [packing]
    exact declaration_overflows valid failed

private theorem content_overflows {text : Text}
    (failed : (reader.content line text).run.value = .error fault) :
    OverflowsIn (reader.content line) text fault := by
  have whole := failed
  rw [value_content] at failed
  cases waiting : reader.pending? with
  | none =>
    rw [waiting] at failed
    refine (statement_overflows valid failed).behind [] (by simp) fun start _ => .of_eq ?_
    rw [List.nil_append, value_content, waiting]
  | some pending =>
    have taken : { reader with pending? := none }.builder.WellFormed := valid
    rw [waiting] at failed
    dsimp only at failed
    split at failed
    next body brace =>
      rw [Text.dropStart?_eq_some_iff.mp brace]
      have opens := Builder.keeps_wellFormed.openGroup taken pending.name? pending.line
      refine (groupBody_overflows opens failed).behind _ (by simp) fun start _ => .of_eq ?_
      rw [value_content, waiting]
      dsimp only
      rw [Text.dropStart?_eq_some_iff.mpr rfl]
    next missing =>
      refine (statement_overflows taken failed).behind [] (by simp) fun start before => .of_eq ?_
      have none : Text.dropStart? ['\x7b'] start = none := by
        cases brace : Text.dropStart? ['\x7b'] start with
        | none => rfl
        | some rest =>
          obtain ⟨tail, rfl⟩ := before
          rw [Text.dropStart?_eq_some_iff.mp brace, List.append_assoc,
            Text.dropStart?_eq_some_iff.mpr rfl] at missing
          cases missing
      rw [List.nil_append, value_content, waiting]
      dsimp only
      rw [none]

private theorem resume_overflows {text : Text}
    (failed : (reader.resume line text).run.value = .error fault) :
    OverflowsIn (reader.resume line) text fault := by
  rw [resume] at failed
  split at failed
  next => cases failed
  next inner after closes =>
    split at failed
    next => cases failed
    next more =>
      have resumed : { reader with skipping := false }.builder.WellFormed := valid
      have trimmed : OverflowsIn (fun start => content { reader with skipping := false } line
        (Text.trim start)) after fault := (content_overflows resumed failed).of_trim fun _ => rfl
      obtain ⟨rfl, absent⟩ := Text.splitAt?_eq_some closes
      have whole (rest : Text) : inner ++ '\x7d' :: rest = (inner ++ ['\x7d']) ++ rest := by simp
      rw [whole]
      refine trimmed.behind _ (by simp) fun start _ => ?_
      rw [← whole, resume, Text.splitAt?_append_cons absent]
      dsimp only
      split
      next nothing =>
        rw [List.isEmpty_iff.mp nothing]
        exact builds_content_nil _ line
      next => exact .of_eq rfl

private theorem line_overflows {number : Nat} {text : Text}
    (failed : (reader.line number text).run.value = .error fault) :
    OverflowsIn (reader.line number) text fault := by
  rw [line_eq] at failed
  split at failed
  next skipping =>
    refine (resume_overflows valid failed).of_trim fun start => ?_
    rw [line_eq, if_pos skipping]
  next reading =>
    refine (content_overflows valid failed).of_trim fun start => ?_
    rw [line_eq, if_neg reading]

theorem lines_overflows {number : Nat} {texts : List Text}
    (failed : (reader.lines number texts).run.value = .error fault) :
    ∃ earlier text later, texts = earlier ++ text :: later ∧
      OverflowsIn (fun start => reader.lines number (earlier ++ [start])) text fault := by
  induction texts generalizing reader number with
  | nil => cases failed
  | cons first rest ih =>
    rw [lines] at failed
    rcases Logged.of_bind_error failed with here | ⟨middle, passed, after⟩
    · refine ⟨[], first, rest, rfl, ?_⟩
      refine (line_overflows valid here).behind [] (by simp) fun start _ => .of_eq ?_
      rw [List.nil_append, List.nil_append, lines, Logged.value_run_bind]
      cases (reader.line number start).run.value <;> rfl
    · have kept := Builder.keeps_wellFormed.line valid passed
      obtain ⟨earlier, text, later, rfl, overflows⟩ := ih kept after
      refine ⟨first :: earlier, text, later, rfl, ?_⟩
      refine overflows.behind [] (by simp) fun start _ => .of_eq ?_
      rw [List.nil_append, List.cons_append, lines, Logged.value_run_bind, passed]

end Readers

end Reader

end ShaderPipeline.Vertex
