import ShaderPipeline.Proofs.Vertex.GroupCounts
import ShaderPipeline.Proofs.Vertex.SectionWriting

/-! Groups that another declaration interrupts. Such a group is given up, everything up to the next
closing brace is skipped, and behind it the section is read as if the group had not been there. -/

namespace ShaderPipeline.Vertex

namespace Reader

/-- Everything is skipped up to a closing brace. -/
structure Skips (reader : Reader) : Prop where
  skipping : reader.skipping = true
  headed : reader.pending? = none
  shut : reader.builder.isPacking = false

/-- A group has been opened and its closing brace has not come yet, whether or not its fields still
count. -/
def Within (reader : Reader) : Prop := reader.Inside ∨ reader.Skips

/-- The readers between which a group's lines move: they differ in the open group and in whether
lines are skipped. -/
def SameBut (reader next : Reader) : Prop :=
  ∃ group? skips, next =
    { reader with builder := { reader.builder with group? }, skipping := skips }

private theorem sameBut_refl (reader : Reader) : reader.SameBut reader :=
  ⟨reader.builder.group?, reader.skipping, rfl⟩

theorem SameBut.trans {first second third : Reader} (here : first.SameBut second)
    (after : second.SameBut third) : first.SameBut third := by
  obtain ⟨_, _, rfl⟩ := here
  obtain ⟨group?, skips, rfl⟩ := after
  exact ⟨group?, skips, rfl⟩

variable {reader next : Reader}

private theorem of_lines_append {number : Nat} {first second : List Text}
    (read : (reader.lines number (first ++ second)).run.value = .ok next) :
    ∃ middle, (reader.lines number first).run.value = .ok middle ∧
      (middle.lines (number + first.length) second).run.value = .ok next := by
  rw [run_lines_append] at read
  cases done : (reader.lines number first).run.value with
  | ok middle =>
    rw [done] at read
    exact ⟨middle, rfl, read⟩
  | error fault =>
    rw [done] at read
    cases read

private theorem of_lines_cons {number : Nat} {line : Text} {rest : List Text}
    (read : (reader.lines number (line :: rest)).run.value = .ok next) :
    ∃ middle, (reader.line number line).run.value = .ok middle ∧
      (middle.lines (number + 1) rest).run.value = .ok next := by
  rw [lines] at read
  exact Logged.of_bind_ok read

theorem Within.headed (within : reader.Within) : reader.pending? = none :=
  within.elim (fun inside => inside.headed) Skips.headed

private theorem sameBut_field {line : Nat} {type name width : Text}
    (read : (reader.field line type name width).run.value = .ok next) : reader.SameBut next := by
  rcases reader.field_cases line type name width with
    same | ⟨basic, bits, -, -, -, -, -, -, passed⟩
  · rw [same] at read
    cases read
    exact sameBut_refl _
  · rw [passed] at read
    generalize outcome : (reader.builder.addPackedField name.string basic.scalar basic.count
      bits).run.value = added at read
    cases added with
    | error fault => cases read
    | ok builder =>
      cases read
      refine ⟨builder.group?, reader.skipping, ?_⟩
      rw [← (reader.builder.of_addPackedField outcome).2]

private theorem sameBut_fields {line : Nat} : ∀ {reader : Reader} (tokens : List Text),
    (reader.fields line tokens).run.value = .ok next → reader.SameBut next
  | reader, type :: name :: width :: rest, read => by
    rw [fields] at read
    obtain ⟨middle, first, others⟩ := Logged.of_bind_ok read
    exact (sameBut_field first).trans (sameBut_fields rest others)
  | reader, [], read | reader, [_], read | reader, [_, _], read => by
    cases read
    exact sameBut_refl _

/-- The open group's fields are read inside it. -/
theorem Inside.fields (inside : reader.Inside) {line : Nat} {tokens : List Text}
    (read : (reader.fields line tokens).run.value = .ok next) : next.Inside := by
  obtain ⟨same, packing⟩ := (calls_fields tokens).same_mode read
  rw [same]
  exact ⟨⟨inside.reading, inside.headed⟩, packing.trans inside.packing⟩

/-! ### The lines of a group -/

theorem Inside.groupBody_unclosed (inside : reader.Inside) {line : Nat} {body : Text}
    (unclosed : '\x7d' ∉ body) (read : (reader.groupBody line body).run.value = .ok next) :
    next.Within ∧ reader.SameBut next := by
  rw [value_groupBody, Text.splitAt?_eq_none_iff.mpr unclosed] at read
  simp only [Option.map_none, Option.getD_none, Option.isNone_none, Option.isSome_none,
    Bool.false_eq_true, ↓reduceIte] at read
  split at read
  · cases read
    exact ⟨.inr ⟨rfl, inside.headed, rfl⟩, none, true, rfl⟩
  · cases fields : (reader.fields line (Text.words body)).run.value with
    | error fault =>
      rw [fields] at read
      cases read
    | ok last =>
      rw [fields] at read
      cases read
      exact ⟨.inl (inside.fields fields), sameBut_fields _ fields⟩

theorem Inside.groupBody_closed (inside : reader.Inside) {line : Nat} {inner trail : Text}
    (unclosed : '\x7d' ∉ inner)
    (read : (reader.groupBody line (inner ++ '\x7d' :: trail)).run.value = .ok next) :
    next.AtRest := by
  rw [value_groupBody, Text.splitAt?_append_cons unclosed] at read
  simp only [Option.map_some, Option.getD_some, Option.isNone_some, Option.isSome_some,
    ↓reduceIte] at read
  split at read
  · cases read
    exact ⟨⟨rfl, inside.headed⟩, rfl⟩
  · cases fields : (reader.fields line (Text.words inner)).run.value with
    | error fault =>
      rw [fields] at read
      cases read
    | ok last =>
      rw [fields] at read
      cases read
      have still := inside.fields fields
      exact ⟨⟨still.reading, still.headed⟩, last.builder.isPacking_endPacked⟩

theorem Skips.line_unclosed (skips : reader.Skips) (number : Nat) {line : Text}
    (unclosed : '\x7d' ∉ Text.trim line) : (reader.line number line).run.value = .ok reader := by
  rw [line_eq, skips.skipping, if_pos rfl, resume, Text.splitAt?_eq_none_iff.mpr unclosed]
  rfl

/-- A line without a closing brace stays within the group. -/
theorem Within.line_unclosed (within : reader.Within) {number : Nat} {line : Text}
    (unclosed : '\x7d' ∉ Text.trim line) (read : (reader.line number line).run.value = .ok next) :
    next.Within ∧ reader.SameBut next := by
  rcases within with inside | skips
  · rw [inside.run_line] at read
    exact inside.groupBody_unclosed unclosed read
  · rw [skips.line_unclosed number unclosed] at read
    cases read
    exact ⟨.inr skips, sameBut_refl _⟩

theorem Within.lines_unclosed (within : reader.Within) {number : Nat} {lines : List Text}
    (unclosed : ∀ line ∈ lines, '\x7d' ∉ Text.trim line)
    (read : (reader.lines number lines).run.value = .ok next) :
    next.Within ∧ reader.SameBut next := by
  induction lines generalizing reader number with
  | nil =>
    cases read
    exact ⟨within, sameBut_refl _⟩
  | cons line rest ih =>
    obtain ⟨own, more⟩ := List.forall_mem_cons.mp unclosed
    obtain ⟨middle, first, others⟩ := of_lines_cons read
    obtain ⟨still, here⟩ := within.line_unclosed own first
    obtain ⟨last, after⟩ := ih still more others
    exact ⟨last, here.trans after⟩

private theorem inside_openGroup (reads : reader.Reads) (name? : Option String) (line : Nat) :
    (reader.openGroup name? line).value.Inside :=
  ⟨⟨reads.reading, reads.headed⟩, Builder.isPacking_beginPacked reader.builder name?⟩

/-- A text that opens no group, or closes the group that it opens. -/
def Complete (text : Text) : Prop :=
  ∀ after, afterPacked? text = some after →
    ∃ head body, after = head ++ '\x7b' :: body ∧ '\x7b' ∉ head ∧ '\x7d' ∈ body

private theorem complete_of_plain {text : Text} (plain : afterPacked? text = none) :
    Complete text := by
  intro after header
  rw [plain] at header
  cases header

/-- A complete text outside all groups is left outside all groups. -/
theorem AtRest.content (rest : reader.AtRest) {line : Nat} {text : Text} (complete : Complete text)
    (read : (reader.content line text).run.value = .ok next) : next.AtRest := by
  rw [value_content, rest.headed] at read
  dsimp only at read
  rw [statement, rest.shut, if_neg Bool.false_ne_true, value_declaration] at read
  cases header : afterPacked? text with
  | none =>
    rw [header] at read
    obtain ⟨same, packing⟩ := (calls_unpacked (Text.words text)).same_mode read
    rw [same]
    exact ⟨⟨rest.reading, rest.headed⟩, packing.trans rest.shut⟩
  | some after =>
    obtain ⟨head, body, rfl, unopened, closed⟩ := complete after header
    obtain ⟨inner, trail, rfl, unclosed⟩ := List.eq_append_cons_of_mem closed
    rw [header] at read
    dsimp only at read
    rw [value_header, Text.splitAt?_append_cons unopened] at read
    exact (inside_openGroup rest.toReads _ line).groupBody_closed unclosed read

/-- A closing brace ends the group, if what stands behind it is complete. -/
theorem Within.line_closed (within : reader.Within) {number : Nat} {line inner trail : Text}
    (unclosed : '\x7d' ∉ inner) (closes : Text.trim line = inner ++ '\x7d' :: trail)
    (complete : Complete (Text.trim trail))
    (read : (reader.line number line).run.value = .ok next) : next.AtRest := by
  rcases within with inside | skips
  · rw [inside.run_line, closes] at read
    exact inside.groupBody_closed unclosed read
  · have awake : AtRest { reader with skipping := false } := ⟨⟨rfl, skips.headed⟩, skips.shut⟩
    rw [line_eq, skips.skipping, if_pos rfl, resume, closes,
      Text.splitAt?_append_cons unclosed] at read
    dsimp only at read
    split at read
    · cases read
      exact awake
    · exact awake.content complete read

end Reader

/-! ### Whole declarations -/

/-- Where a packed group ends: from a text inside it over lines below, up to its closing brace. What
stands behind the brace is complete. -/
inductive Closing : Text → List Text → Prop
  | close {inner trail : Text} (unclosed : '\x7d' ∉ inner)
      (complete : Reader.Complete (Text.trim trail)) :
      Closing (inner ++ '\x7d' :: trail) []
  | more {text line : Text} {lines : List Text} (unclosed : '\x7d' ∉ text)
      (rest : Closing (Text.trim line) lines) : Closing text (line :: lines)

/-- Lines of whole declarations, and of packed groups that are closed by their brace, in the same
line or further down. The opening brace of a group stands in its header or begins the next line. -/
inductive Whole : List Text → Prop
  | nil : Whole []
  | line {line : Text} {lines : List Text} (complete : Reader.Complete (Text.trim line))
      (rest : Whole lines) : Whole (line :: lines)
  | group {line head text : Text} {body lines : List Text}
      (header : Reader.afterPacked? (Text.trim line) = some (head ++ '\x7b' :: text))
      (unopened : '\x7b' ∉ head) (closing : Closing text body) (rest : Whole lines) :
      Whole (line :: (body ++ lines))
  | groupBelow {line opening head text : Text} {body lines : List Text}
      (header : Reader.afterPacked? (Text.trim line) = some head) (unopened : '\x7b' ∉ head)
      (opens : Text.trim opening = ['\x7b'] ++ text) (closing : Closing text body)
      (rest : Whole lines) : Whole (line :: opening :: (body ++ lines))

namespace Reader

variable {reader next : Reader}

/-- The lines of a group end outside of it. -/
theorem Within.closing (within : reader.Within) {text line : Text} {lines : List Text}
    (closing : Closing text lines) (shown : Text.trim line = text) {number : Nat}
    (read : (reader.lines number (line :: lines)).run.value = .ok next) : next.AtRest := by
  induction closing generalizing reader line number with
  | close unclosed complete =>
    obtain ⟨middle, first, others⟩ := of_lines_cons read
    cases others
    exact within.line_closed unclosed shown complete first
  | more unclosed rest ih =>
    obtain ⟨middle, first, others⟩ := of_lines_cons read
    exact ih (within.line_unclosed (shown ▸ unclosed) first).1 rfl others

theorem Inside.closing (inside : reader.Inside) {text : Text} {lines : List Text}
    (closing : Closing text lines) {line number : Nat} {middle : Reader}
    (first : (reader.groupBody line text).run.value = .ok middle)
    (others : (middle.lines number lines).run.value = .ok next) : next.AtRest := by
  cases closing with
  | close unclosed _ =>
    cases others
    exact inside.groupBody_closed unclosed first
  | more unclosed rest =>
    exact (inside.groupBody_unclosed unclosed first).1.closing rest rfl others

/-- Whole declarations are read from one rest to the next. -/
theorem AtRest.whole (rest : reader.AtRest) {lines : List Text} (whole : Whole lines) {number : Nat}
    (read : (reader.lines number lines).run.value = .ok next) : next.AtRest := by
  induction whole generalizing reader number with
  | nil =>
    cases read
    exact rest
  | line complete more ih =>
    obtain ⟨middle, first, others⟩ := of_lines_cons read
    rw [line_of_reading rest.reading] at first
    exact ih (rest.content complete first) others
  | group header unopened closing more ih =>
    obtain ⟨opened, first, others⟩ := of_lines_cons read
    obtain ⟨middle, inner, outer⟩ := of_lines_append others
    rw [rest.run_line, value_declaration, header] at first
    dsimp only at first
    rw [value_header, Text.splitAt?_append_cons unopened] at first
    exact ih ((inside_openGroup rest.toReads _ _).closing closing first inner) outer
  | groupBelow header unopened opens closing more ih =>
    obtain ⟨waiting, first, others⟩ := of_lines_cons read
    obtain ⟨opened, second, others⟩ := of_lines_cons others
    obtain ⟨middle, inner, outer⟩ := of_lines_append others
    rw [rest.run_line, value_declaration, header] at first
    dsimp only at first
    rw [value_header, Text.splitAt?_eq_none_iff.mpr unopened] at first
    cases first
    rw [run_pending rest.reading _ opens] at second
    have reads : Reads { reader with pending? := none } := ⟨rest.reading, rfl⟩
    exact ih ((inside_openGroup reads _ _).closing closing second inner) outer

end Reader

/-! ### Interrupted groups -/

/-- A packed group that the beginning of another declaration interrupts, up to a line with just a
closing brace. -/
structure Broken where
  header : Text
  fields : List Text
  interruption : Text
  skipped : List Text
  brace : Text

namespace Broken

/-- The lines that are read into the group. -/
def opening (broken : Broken) : List Text := broken.header :: broken.fields

def lines (broken : Broken) : List Text :=
  broken.opening ++ broken.interruption :: (broken.skipped ++ [broken.brace])

/-- The header ends in its opening brace, and the lines between it and the last have no closing
brace. A line of fields with an opening brace would itself interrupt the group. -/
structure Proper (broken : Broken) : Prop where
  opens : ∃ head, Reader.afterPacked? (Text.trim broken.header) = some (head ++ ['\x7b']) ∧
    '\x7b' ∉ head
  interrupts : (Text.words broken.interruption).head? = some "packed".toList ∨
    (Text.words broken.interruption).head? = some "normalized".toList
  unclosed : ∀ line ∈ broken.fields ++ broken.interruption :: broken.skipped, '\x7d' ∉ line
  closes : Text.trim broken.brace = ['\x7d']

end Broken

namespace Reader

variable {reader next : Reader}

private theorem discardPacked_of_shut {builder : Builder} (shut : builder.isPacking = false) :
    builder.discardPacked = builder := by
  have closed : builder.group? = none := by simpa [Builder.isPacking] using shut
  rw [Builder.discardPacked, ← closed]

/-- The beginning of another declaration gives the group up. -/
theorem Within.line_interrupted (within : reader.Within) (number : Nat) {line : Text}
    (interrupts : (Text.words line).head? = some "packed".toList ∨
      (Text.words line).head? = some "normalized".toList) (unclosed : '\x7d' ∉ line) :
    (reader.line number line).run.value =
      .ok { reader with builder := reader.builder.discardPacked, skipping := true } := by
  have trimmed : '\x7d' ∉ Text.trim line := fun member => unclosed (Text.trim_subset line member)
  rcases within with inside | skips
  · have stops : (Text.words line).any Reader.interrupts = true := by
      cases split : Text.words line with
      | nil => simp [split] at interrupts
      | cons first others =>
        rw [split] at interrupts
        rcases interrupts with same | same <;> cases same <;> rfl
    rw [inside.run_line, value_groupBody, Text.splitAt?_eq_none_iff.mpr trimmed]
    simp only [Option.map_none, Option.getD_none, Text.words_trim, stops, ↓reduceIte,
      Option.isNone_none]
  · rw [skips.line_unclosed number trimmed, discardPacked_of_shut skips.shut]
    obtain ⟨builder, pending?, groupLine, skipping⟩ := reader
    cases skips.skipping
    rfl

theorem Skips.lines_unclosed (skips : reader.Skips) (number : Nat) {lines : List Text}
    (unclosed : ∀ line ∈ lines, '\x7d' ∉ line) :
    (reader.lines number lines).run.value = .ok reader := by
  induction lines generalizing number with
  | nil => rfl
  | cons line rest ih =>
    obtain ⟨own, more⟩ := List.forall_mem_cons.mp unclosed
    have trimmed : '\x7d' ∉ Text.trim line := fun member => own (Text.trim_subset line member)
    rw [run_lines_cons, skips.line_unclosed number trimmed]
    exact ih (number + 1) more

theorem Skips.line_brace (skips : reader.Skips) (number : Nat) {line : Text}
    (closes : Text.trim line = ['\x7d']) :
    (reader.line number line).run.value = .ok { reader with skipping := false } := by
  rw [line_eq, skips.skipping, if_pos rfl, resume, closes]
  rfl

theorem AtRest.line_header (rest : reader.AtRest) (number : Nat) {line head : Text}
    (header : afterPacked? (Text.trim line) = some (head ++ ['\x7b'])) (unopened : '\x7b' ∉ head) :
    (reader.line number line).run.value =
      .ok (reader.openGroup (groupName? head) number).value := by
  rw [rest.run_line, value_declaration, header]
  dsimp only
  rw [value_header, Text.splitAt?_append_cons unopened]
  rfl

/-- From inside a group, its interruption and what is skipped behind it lead out of the group. -/
theorem Within.lines_interrupted (within : reader.Within) {broken : Broken} (proper : broken.Proper)
    (number : Nat) :
    (reader.lines number (broken.interruption :: (broken.skipped ++ [broken.brace]))).run.value =
      .ok { reader with builder := reader.builder.discardPacked, skipping := false } := by
  obtain ⟨interruption, skipped⟩ :=
    List.forall_mem_cons.mp (List.forall_mem_append.mp proper.unclosed).2
  let given : Reader := { reader with builder := reader.builder.discardPacked, skipping := true }
  have skips : given.Skips := ⟨rfl, within.headed, rfl⟩
  rw [run_lines_cons, within.line_interrupted number proper.interrupts interruption]
  refine (run_lines_append given _ _ _).trans ?_
  rw [skips.lines_unclosed _ skipped]
  refine (run_lines_cons given _ _ _).trans ?_
  rw [skips.line_brace _ proper.closes]
  rfl

/-- An interrupted group leaves a reader that is like the one before it. -/
theorem AtRest.broken (rest : reader.AtRest) {broken : Broken} (proper : broken.Proper)
    {number : Nat} {middle : Reader}
    (opened : (reader.lines number broken.opening).run.value = .ok middle) :
    ∃ next, (reader.lines number broken.lines).run.value = .ok next ∧ Alike reader next := by
  obtain ⟨head, header, unopened⟩ := proper.opens
  have fields : ∀ line ∈ broken.fields, '\x7d' ∉ Text.trim line := fun line member shown =>
    (List.forall_mem_append.mp proper.unclosed).1 line member (Text.trim_subset line shown)
  obtain ⟨first, here, others⟩ := of_lines_cons opened
  rw [rest.line_header number header unopened] at here
  cases here
  have inside := inside_openGroup rest.toReads (groupName? head) number
  obtain ⟨within, same⟩ := Within.lines_unclosed (.inl inside) fields others
  refine ⟨{ middle with builder := middle.builder.discardPacked, skipping := false }, ?_, ?_⟩
  · rw [Broken.lines, run_lines_append, opened]
    exact within.lines_interrupted proper _
  · -- the count of groups is one higher, and the group itself is gone
    obtain ⟨group?, skips, rfl⟩ := same
    have shut : reader.builder.group? = none := by simpa [Builder.isPacking] using rest.shut
    refine ⟨⟨reader.builder.groupsStarted + 1, ?_⟩, ?_, rest.reading.symm⟩
    · change ((reader.builder.beginPacked (groupName? head)).value).discardPacked = _
      rw [Builder.value_beginPacked, Builder.restarted, shut]
      rfl
    · change Option.Rel _ reader.pending? reader.pending?
      rw [rest.headed]
      exact .none

private theorem lines_map_dropReturn (reader : Reader) (number : Nat) (lines : List Text) :
    reader.lines number (lines.map Text.dropReturn) = reader.lines number lines := by
  induction lines generalizing reader number with
  | nil => rfl
  | cons line rest ih =>
    rw [List.map_cons, Reader.lines, Reader.lines, line_eq, line_eq, Text.trim_dropReturn]
    simp only [ih]

/-- Lines that are ended by newlines are read before the rest of a text. -/
theorem run_endLines (reader : Reader) (number : Nat) {lines : List Text}
    (single : ∀ line ∈ lines, '\n' ∉ line) (rest : Text) :
    (reader.lines number (Text.lines (Text.endLines lines ++ rest))).run.value =
      (reader.lines number lines).run.value >>= fun next =>
        (next.lines (number + lines.length) (Text.lines rest)).run.value := by
  rw [Text.lines_endLines_append single, run_lines_append, lines_map_dropReturn, List.length_map]

/-- Behind an interrupted group, a text is read as in front of it. -/
theorem AtRest.lines_broken (rest : reader.AtRest) {broken : Broken} (proper : broken.Proper)
    (single : ∀ line ∈ broken.lines, '\n' ∉ line) {number : Nat} {middle : Reader}
    (opened : (reader.lines number broken.opening).run.value = .ok middle) {after : Text}
    (named : reader.NamesGroups number (Text.lines after)) :
    AlikeOutcomes (reader.lines number (Text.lines after)).run.value
      (reader.lines number (Text.lines (Text.endLines broken.lines ++ after))).run.value := by
  obtain ⟨next, done, alike⟩ := rest.broken proper opened
  rw [run_endLines reader number single after, done]
  exact alike.lines number (number + broken.lines.length) named

end Reader

namespace Layout

private theorem value_ofSection_endLines {lines : List Text}
    (single : ∀ line ∈ lines, '\n' ∉ line) :
    (ofSection (Text.endLines lines)).run.value =
      (Reader.start.lines 1 lines).run.value.map fun reader => reader.finish.value := by
  have read := Reader.start.run_endLines 1 single []
  rw [List.append_nil] at read
  rw [value_ofSection, read]
  cases (Reader.start.lines 1 lines).run.value <;> rfl

/-- Behind whole declarations, an interrupted group leaves no trace: the section is read to the same
layout, or ends in the same fault, as without its lines. The group's fields must have room, and the
headers behind it names of their own, since default names count the groups before them. -/
theorem ofSection_broken {before : List Text} {broken : Broken} {after : Text}
    (single : ∀ line ∈ before ++ broken.lines, '\n' ∉ line) (whole : Whole before)
    (proper : broken.Proper)
    (fits : ∀ fault,
      (ofSection (Text.endLines (before ++ broken.opening))).run.value = .error fault →
        (ofSection (Text.endLines before)).run.value = .error fault)
    (named : ∀ reader, (Reader.start.lines 1 before).run.value = .ok reader →
      reader.NamesGroups (before.length + 1) (Text.lines after)) :
    (ofSection (Text.endLines before ++ Text.endLines broken.lines ++ after)).run.value =
      (ofSection (Text.endLines before ++ after)).run.value := by
  obtain ⟨own, others⟩ := List.forall_mem_append.mp single
  have opening : ∀ line ∈ before ++ broken.opening, '\n' ∉ line :=
    List.forall_mem_append.mpr ⟨own, (List.forall_mem_append.mp others).1⟩
  rw [value_ofSection_endLines own, value_ofSection_endLines opening, Reader.run_lines_append]
    at fits
  rw [value_ofSection, value_ofSection, List.append_assoc, Reader.run_endLines _ _ own,
    Reader.run_endLines _ _ own]
  cases read : (Reader.start.lines 1 before).run.value with
  | error fault => rfl
  | ok reader =>
    have rest := Reader.atRest_start.whole whole read
    have headers := named reader read
    rw [read] at fits
    cases opened : (reader.lines (1 + before.length) broken.opening).run.value with
    | error fault =>
      have failed : (Except.ok reader >>= fun next : Reader =>
          (next.lines (1 + before.length) broken.opening).run.value) = .error fault := opened
      rw [failed] at fits
      cases fits fault rfl
    | ok middle =>
      rw [Nat.add_comm] at headers
      exact (rest.lines_broken proper others opened headers).finish

/-- A group with one field, which another group interrupts. -/
def interrupted : Broken where
  header := "packed a \x7b".toList
  fields := ["byte x 4".toList]
  interruption := "packed b \x7b".toList
  skipped := ["byte y 4".toList]
  brace := "\x7d".toList

theorem ofSection_broken_interrupted :
    let before := ["vec3 at".toList, "packed i \x7b int id 8".toList, "\x7d".toList]
    let after := "vec3 position\npacked c \x7b byte x 2 \x7d\n".toList
    Whole before ∧ interrupted.Proper ∧
      (ofSection (Text.endLines before ++ Text.endLines interrupted.lines ++ after)).run.value =
        (ofSection (Text.endLines before ++ after)).run.value ∧
      ((ofSection (Text.endLines before ++ after)).run.value.map
        (Option.map fun layout => layout.attributes.map Attribute.name)) =
          .ok (some ["at", "i", "position", "c"]) := by
  intro before after
  have header : Reader.afterPacked? (Text.trim "packed i \x7b int id 8".toList) =
      some (" i ".toList ++ '\x7b' :: " int id 8".toList) := rfl
  have closing : Closing " int id 8".toList ["\x7d".toList] :=
    .more (by decide) (@Closing.close [] [] (by decide) (Reader.complete_of_plain rfl))
  have whole : Whole before :=
    .line (Reader.complete_of_plain rfl) (.group header (by decide) closing .nil)
  have proper : interrupted.Proper :=
    ⟨⟨" a ".toList, by decide, by decide⟩, by decide, by decide, by decide⟩
  refine ⟨whole, proper, ofSection_broken (by decide) whole proper (fun fault failed => ?_)
    (fun reader _ => Reader.namesGroups_of_headers (by decide)), rfl⟩
  cases failed

end Layout
end ShaderPipeline.Vertex
