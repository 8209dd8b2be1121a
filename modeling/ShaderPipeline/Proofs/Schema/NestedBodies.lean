import ShaderPipeline.Proofs.Schema.LineNumbers
import ShaderPipeline.Proofs.Schema.RoundTrip

/-! Bodies with whole structs nested in them, to any depth. A reader stands between structs, inside
one, or skips; each line of such a body takes it from one of the three to another, whatever else
the line says. A nested body is skipped to its own closing brace if nothing is nested in it, and
then the body reads as it does without it. -/

namespace ShaderPipeline.Schema

open Text

/-! ### Lines of nested structs -/

/-- A line that starts with the keyword and opens a body. -/
structure HeaderLine (line : Text) : Prop where
  keyword : (words line).head? = some TypesReader.keyword
  opened : '\x7b' ∈ line
  unclosed : '\x7d' ∉ line

/-- A line that starts with a closing brace. -/
def ClosingLine (line : Text) : Prop := (trim line).head? = some '\x7d'

/-- The lines of a struct's body: members, and whole structs nested between them. -/
inductive Body where
  | nil
  | member (line : Text) (rest : Body)
  | nested (header : Text) (inside : Body) (closing : Text) (rest : Body)

namespace Body

def lines : Body → List Text
  | nil => []
  | member line rest => line :: rest.lines
  | nested header inside closing rest => header :: (inside.lines ++ closing :: rest.lines)

/-- The lines of the members, without the structs nested between them. -/
def own : Body → List Text
  | nil => []
  | member line rest => line :: rest.own
  | nested _ _ _ rest => rest.own

/-- The lines of the nested structs. -/
def inserted : Body → List Text
  | nil => []
  | member _ rest => rest.inserted
  | nested header inside closing rest => header :: (inside.lines ++ closing :: rest.inserted)

/-- A body with one more member at its end. -/
def snoc (last : Text) : Body → Body
  | nil => member last nil
  | member line rest => member line (rest.snoc last)
  | nested header inside closing rest => nested header inside closing (rest.snoc last)

/-- Every line says what it stands for. -/
def Written : Body → Prop
  | nil => True
  | member line rest => MemberLine line ∧ rest.Written
  | nested header inside closing rest =>
    HeaderLine header ∧ inside.Written ∧ ClosingLine closing ∧ rest.Written

/-- No struct is nested in the body. -/
def Flat : Body → Prop
  | nil => True
  | member _ rest => rest.Flat
  | nested _ _ _ _ => False

/-- No struct is nested in a nested one. -/
def Shallow : Body → Prop
  | nil => True
  | member _ rest => rest.Shallow
  | nested _ inside _ rest => inside.Flat ∧ rest.Shallow

variable {body : Body}

@[simp] theorem lines_snoc (body : Body) (last : Text) :
    (body.snoc last).lines = body.lines ++ [last] := by
  induction body with
  | nil => rfl
  | member line rest ih => simp [snoc, lines, ih]
  | nested header inside closing rest _ ih => simp [snoc, lines, ih]

@[simp] theorem own_snoc (body : Body) (last : Text) :
    (body.snoc last).own = body.own ++ [last] := by
  induction body with
  | nil => rfl
  | member line rest ih => simp [snoc, own, ih]
  | nested header inside closing rest _ ih => simp [snoc, own, ih]

@[simp] theorem inserted_snoc (body : Body) (last : Text) :
    (body.snoc last).inserted = body.inserted := by
  induction body with
  | nil => rfl
  | member line rest ih => simp [snoc, inserted, ih]
  | nested header inside closing rest _ ih => simp [snoc, inserted, ih]

@[simp] theorem shallow_snoc (body : Body) (last : Text) :
    (body.snoc last).Shallow ↔ body.Shallow := by
  induction body with
  | nil => simp [snoc, Shallow]
  | member line rest ih => simp [snoc, Shallow, ih]
  | nested header inside closing rest _ ih => simp [snoc, Shallow, ih]

@[simp] theorem written_snoc (body : Body) (last : Text) :
    (body.snoc last).Written ↔ body.Written ∧ MemberLine last := by
  induction body with
  | nil => simp [snoc, Written]
  | member line rest ih => simp [snoc, Written, ih, and_assoc]
  | nested header inside closing rest _ ih => simp [snoc, Written, ih, and_assoc]

theorem mem_own_or_inserted {line : Text} (member : line ∈ body.lines) :
    line ∈ body.own ∨ line ∈ body.inserted := by
  induction body with
  | nil => cases member
  | member first rest ih =>
    rcases List.mem_cons.mp member with rfl | later
    · exact .inl List.mem_cons_self
    · exact (ih later).imp_left (List.mem_cons_of_mem first)
  | nested header inside closing rest _ ih =>
    simp only [lines, inserted, List.mem_cons, List.mem_append] at member ⊢
    tauto

theorem own_subset (body : Body) : body.own ⊆ body.lines := by
  induction body with
  | nil => exact List.Subset.refl []
  | member line rest ih => exact List.cons_subset_cons line ih
  | nested header inside closing rest _ ih =>
    intro line member
    simp [lines, ih member]

/-- Every line of a body is a member's, a header or a closing line. -/
theorem Written.cases (written : body.Written) :
    ∀ line ∈ body.lines, MemberLine line ∨ HeaderLine line ∨ ClosingLine line := by
  induction body with
  | nil => exact fun _ absent => (nomatch absent)
  | member first rest ih =>
    intro line member
    rcases List.mem_cons.mp member with rfl | later
    · exact .inl written.1
    · exact ih written.2 line later
  | nested header inside closing rest inner outer =>
    obtain ⟨opens, within, closes, behind⟩ := written
    intro line member
    simp only [lines, List.mem_cons, List.mem_append] at member
    rcases member with rfl | nested | rfl | later
    · exact .inr (.inl opens)
    · exact inner within line nested
    · exact .inr (.inr closes)
    · exact outer behind line later

end Body

/-! ### Where a reader stands -/

/-- Where a reader stands that waits for no brace. -/
inductive Mode where
  | between
  | inside
  | skipping
  deriving DecidableEq

namespace Mode

/-- Where a header leads. -/
def opened : Mode → Mode
  | between => inside
  | inside | skipping => skipping

/-- Where a closing brace leads. One brace ends the skipping, however deep it stands. -/
def closed : Mode → Mode
  | between | inside => between
  | skipping => inside

theorem closed_ne_skipping (mode : Mode) : mode.closed ≠ skipping := by
  cases mode <;> exact nofun

theorem closed_of_ne {mode : Mode} (apart : mode ≠ skipping) : mode.closed = between := by
  cases mode with
  | between | inside => rfl
  | skipping => exact absurd rfl apart

end Mode

namespace Body

/-- Where the lines of a body lead. -/
def mode : Body → Mode → Mode
  | nil, mode => mode
  | member _ rest, mode => rest.mode mode
  | nested _ inside _ rest, mode => rest.mode (inside.mode mode.opened).closed

theorem mode_ne_skipping (body : Body) {mode : Mode} (apart : mode ≠ .skipping) :
    body.mode mode ≠ .skipping := by
  induction body generalizing mode with
  | nil => exact apart
  | member line rest ih => exact ih apart
  | nested header inside closing rest _ ih => exact ih (Mode.closed_ne_skipping _)

/-- Between structs a body opens and closes structs of its own. -/
theorem mode_between (body : Body) : body.mode .between = .between := by
  induction body with
  | nil => rfl
  | member line rest ih => exact ih
  | nested header inside closing rest _ ih =>
    have apart : inside.mode Mode.between.opened ≠ .skipping := inside.mode_ne_skipping nofun
    rw [mode, Mode.closed_of_ne apart, ih]

/-- A body is skipped whole if it is flat. Behind a struct that is nested in it, nothing is
skipped any more. -/
theorem mode_skipping_iff (body : Body) : body.mode .skipping = .skipping ↔ body.Flat := by
  induction body with
  | nil => exact iff_of_true rfl trivial
  | member line rest ih => exact ih
  | nested header inside closing rest _ _ =>
    exact iff_of_false (rest.mode_ne_skipping (Mode.closed_ne_skipping _)) id

/-- A struct is still open behind a shallow body. Behind any other one it has been closed. -/
theorem mode_inside_iff (body : Body) : body.mode .inside = .inside ↔ body.Shallow := by
  induction body with
  | nil => exact iff_of_true rfl trivial
  | member line rest ih => exact ih
  | nested header inside closing rest _ ih =>
    rw [mode, Mode.opened, Shallow, ← inside.mode_skipping_iff]
    by_cases flat : inside.mode .skipping = .skipping
    · simpa [flat, Mode.closed] using ih
    · simp [flat, Mode.closed_of_ne flat, rest.mode_between]

theorem mode_inside_of_not_shallow {body : Body} (deep : ¬ body.Shallow) :
    body.mode .inside = .between := by
  have skips : body.mode .inside ≠ .skipping := body.mode_ne_skipping nofun
  have stays := mt body.mode_inside_iff.mp deep
  cases leads : body.mode .inside with
  | between => rfl
  | inside => exact absurd leads stays
  | skipping => exact absurd leads skips

end Body

/-! ### Reading -/

namespace TypesReader

/-- A reader that stands where the mode says, and waits for no brace. -/
structure StandsIn (mode : Mode) (reader : TypesReader) : Prop where
  ready : reader.pending? = none
  skipping : reader.skipping = true ↔ mode = .skipping
  outside : reader.current? = none ↔ mode = .between

variable {mode : Mode} {reader : TypesReader}

theorem stands_inside (structs : List Struct) (header : Nat) (struct : Struct) :
    StandsIn .inside (inside structs header struct) :=
  ⟨rfl, by simp [inside], by simp [inside]⟩

theorem StandsIn.reading (stands : StandsIn mode reader) (apart : mode ≠ .skipping) :
    reader.skipping = false :=
  Bool.eq_false_iff.mpr fun skips => apart (stands.skipping.mp skips)

/-- A statement changes the struct that is open, and nothing else. -/
theorem exists_statement (reader : TypesReader) (number : Nat) (text : Text) :
    ∃ current?, (reader.statement number text).value = { reader with current? } ∧
      (current? = none ↔ reader.current? = none) := by
  rw [TypesReader.statement]
  cases opened : reader.current? with
  | none => exact ⟨reader.current?, rfl, by simp [opened]⟩
  | some current =>
    dsimp only
    split
    · exact ⟨_, rfl, by simp⟩
    · exact ⟨reader.current?, rfl, by simp [opened]⟩

private theorem exists_statements (reader : TypesReader) (number : Nat) (texts : List Text) :
    ∃ current?, (reader.statements number texts).value = { reader with current? } ∧
      (current? = none ↔ reader.current? = none) := by
  induction texts generalizing reader with
  | nil => exact ⟨reader.current?, rfl, Iff.rfl⟩
  | cons text rest ih =>
    obtain ⟨middle?, here, same⟩ := reader.exists_statement number text
    obtain ⟨current?, later, still⟩ := ih { reader with current? := middle? }
    refine ⟨current?, ?_, still.trans same⟩
    rw [statements, Logged.value_bind, here, later]

theorem StandsIn.statements (stands : StandsIn mode reader) (number : Nat) (texts : List Text) :
    StandsIn mode (reader.statements number texts).value := by
  obtain ⟨current?, read, same⟩ := exists_statements reader number texts
  rw [read]
  exact ⟨stands.ready, stands.skipping, same.trans stands.outside⟩

/-- A line without a closing brace is skipped. -/
theorem line_skipped (skips : reader.skipping = true) {line : Text} (unclosed : '\x7d' ∉ line)
    (number : Nat) : (reader.line number line).value = reader := by
  have absent : (trim line).contains '\x7d' = false := by
    simpa using fun inside => unclosed (trim_subset line inside)
  rw [TypesReader.line, if_pos skips, absent, Bool.not_false, ← skips]
  rfl

/-- A member's line leaves the reader where it stands. -/
theorem StandsIn.member (stands : StandsIn mode reader) {line : Text} (member : MemberLine line)
    (number : Nat) : StandsIn mode (reader.line number line).value := by
  by_cases skips : mode = .skipping
  · rwa [line_skipped (stands.skipping.mpr skips) member.unclosed]
  · rw [line_member (stands.reading skips) stands.ready member]
    exact stands.statements number _

/-- A header that is not between structs starts the skipping. -/
theorem line_header_open (stands : StandsIn mode reader) (opened : mode ≠ .between) {line : Text}
    (header : HeaderLine line) (number : Nat) :
    (reader.line number line).value = { reader with skipping := true } := by
  by_cases skips : reader.skipping = true
  · rw [line_skipped skips header.unclosed, ← skips]
  · obtain ⟨current, present⟩ := Option.ne_none_iff_exists'.mp (mt stands.outside.mp opened)
    have absent : '\x7d' ∉ trim line := fun inside => header.unclosed (trim_subset line inside)
    rw [line_eq_declaration (by simpa using skips) stands.ready rfl, declaration, words_trim,
      header.keyword]
    simp [present, absent]

/-- What follows the keyword of a header that opens a body. -/
theorem splitHeader_header {line : Text} (header : HeaderLine line) :
    ∃ name rest, splitHeader ((trim line).drop keyword.length) = (name, some rest) ∧
      '\x7d' ∉ rest := by
  obtain ⟨after, whole, _⟩ := exists_trim_eq_append header.keyword
  have opened : '\x7b' ∈ after := by
    obtain ⟨lead, trail, same, before, behind, _⟩ := exists_trim line
    have member := header.opened
    rw [same, whole] at member
    simp only [List.mem_append] at member
    rcases member with lead | (first | inside) | trail
    · cases before _ lead
    · exact absurd first (by decide)
    · exact inside
    · cases behind _ trail
  have dropped : (trim line).drop keyword.length = after := by rw [whole, List.drop_left]
  cases split : splitAt? '\x7b' after with
  | none => exact absurd opened (splitAt?_eq_none_iff.mp split)
  | some parts =>
    obtain ⟨head, rest⟩ := parts
    refine ⟨trim head, rest, by rw [dropped, splitHeader, split], fun inside => ?_⟩
    refine header.unclosed (trim_subset line ?_)
    rw [whole, (splitAt?_eq_some split).1]
    simp [inside]

/-- A header opens a struct between structs, and is skipped with what follows it inside one. -/
theorem StandsIn.header (stands : StandsIn mode reader) {line : Text} (header : HeaderLine line)
    (number : Nat) : StandsIn mode.opened (reader.line number line).value := by
  by_cases outside : mode = .between
  · subst outside
    have closed : reader.current? = none := stands.outside.mpr rfl
    obtain ⟨others, first⟩ := List.head?_eq_some_iff.mp header.keyword
    obtain ⟨name, rest, split, unclosed⟩ := splitHeader_header header
    rw [line_eq_declaration (stands.reading nofun) stands.ready rfl,
      declaration_eq_header closed (by rw [words_trim, first]), value_header, split]
    dsimp only
    have opened (current : OpenStruct) :
        StandsIn .inside { reader with current? := some current } :=
      ⟨stands.ready, stands.skipping.trans (iff_of_false nofun nofun), iff_of_false nofun nofun⟩
    rw [body_of_notMem _ unclosed]
    exact (opened _).statements number _
  · rw [line_header_open stands outside header]
    have leads : mode.opened = .skipping := by
      cases mode with
      | between => exact absurd rfl outside
      | inside | skipping => rfl
    rw [leads]
    refine ⟨stands.ready, iff_of_true rfl rfl, ?_⟩
    exact stands.outside.trans (iff_of_false outside nofun)

theorem line_closing_skipped (skips : reader.skipping = true) {line : Text}
    (closing : ClosingLine line) (number : Nat) :
    (reader.line number line).value = { reader with skipping := false } := by
  have present : (trim line).contains '\x7d' = true := by
    simpa using List.mem_of_head? closing
  rw [TypesReader.line, if_pos skips, present]
  rfl

/-- A closing line closes, unless it is skipped. -/
theorem value_line_closing (reading : reader.skipping = false) (ready : reader.pending? = none)
    {line : Text} (closing : ClosingLine line) (number : Nat) :
    (reader.line number line).value = (reader.close number).value := by
  obtain ⟨after, whole⟩ := List.head?_eq_some_iff.mp closing
  cases first : words (trim line) with
  | nil =>
    have empty := trim_of_words_eq_nil (words_trim line ▸ first)
    rw [whole] at empty
    cases empty
  | cons word others =>
    have head : (words line).head? = some word := by rw [← words_trim, first]; rfl
    obtain ⟨rest, same, filled⟩ := exists_trim_eq_append head
    have brace : word.head? = some '\x7d' := by
      rw [← List.head?_append_of_ne_nil _ filled, ← same]
      exact closing
    rw [line_eq_declaration reading ready rfl,
      declaration_eq_body reader first (by rintro rfl; cases brace) (by simp [brace]),
      value_body, whole]
    rfl

private theorem exists_close (reader : TypesReader) (number : Nat) :
    ∃ types, (reader.close number).value = { reader with types, current? := none } := by
  rw [close]
  cases opened : reader.current? with
  | none =>
    have same : { reader with current? := none } = reader := by rw [← opened]
    exact ⟨reader.types, same.symm⟩
  | some current =>
    dsimp only
    split
    · exact ⟨_, rfl⟩
    · split <;> exact ⟨_, rfl⟩

/-- A closing brace ends the skipping, or else closes the struct. -/
theorem StandsIn.closing (stands : StandsIn mode reader) {line : Text} (closing : ClosingLine line)
    (number : Nat) : StandsIn mode.closed (reader.line number line).value := by
  by_cases skips : mode = .skipping
  · subst skips
    rw [line_closing_skipped (stands.skipping.mpr rfl) closing]
    refine ⟨stands.ready, iff_of_false nofun nofun, ?_⟩
    exact stands.outside.trans (iff_of_false nofun nofun)
  · obtain ⟨types, closed⟩ := exists_close reader number
    rw [value_line_closing (stands.reading skips) stands.ready closing, closed,
      Mode.closed_of_ne skips]
    refine ⟨stands.ready, ?_, iff_of_true rfl rfl⟩
    exact stands.skipping.trans (iff_of_false skips nofun)

/-- The lines of a body lead a reader where its shape alone says. -/
theorem StandsIn.body {body : Body} (written : body.Written) (stands : StandsIn mode reader)
    (number : Nat) : StandsIn (body.mode mode) (reader.lines number body.lines).value := by
  induction body generalizing mode reader number with
  | nil => exact stands
  | member line rest ih => exact ih written.2 (stands.member written.1 number) (number + 1)
  | nested header inside closing rest inner outer =>
    obtain ⟨opens, within, closes, behind⟩ := written
    have opened := inner within (stands.header opens number) (number + 1)
    rw [Body.lines, lines, Logged.value_bind, lines_append, Logged.value_bind]
    exact outer behind (opened.closing closes _) _

/-- The lines of a flat body are skipped one by one. -/
theorem lines_flat {body : Body} (written : body.Written) (flat : body.Flat)
    (skips : reader.skipping = true) (number : Nat) :
    (reader.lines number body.lines).value = reader := by
  induction body generalizing number with
  | nil => rfl
  | member line rest ih =>
    rw [Body.lines, lines, Logged.value_bind, line_skipped skips written.1.unclosed,
      ih written.2 flat]
  | nested => exact absurd flat id

/-- A shallow body reads as its members alone. -/
theorem Alike.shallow {body : Body} (written : body.Written) (shallow : body.Shallow)
    {other : TypesReader} (stands : StandsIn .inside reader) (alike : Alike reader other)
    (number start : Nat) :
    Alike (reader.lines number body.lines).value (other.lines start body.own).value := by
  induction body generalizing reader other number start with
  | nil => exact alike
  | member line rest ih =>
    exact ih written.2 shallow (stands.member written.1 number) (alike.line number start line)
      (number + 1) (start + 1)
  | nested header inside closing rest _ ih =>
    obtain ⟨opens, within, closes, behind⟩ := written
    obtain ⟨flat, shallow⟩ := shallow
    -- The header starts the skipping and the closing line ends it, which gives the reader back.
    have back : { reader with skipping := false } = reader := by
      rw [← stands.reading (by decide)]
    rw [Body.lines, TypesReader.lines, Logged.value_bind,
      line_header_open stands (by decide) opens, lines_append, Logged.value_bind,
      lines_flat within flat rfl, TypesReader.lines, Logged.value_bind,
      line_closing_skipped rfl closes, back]
    exact ih behind shallow stands alike _ start

end TypesReader

end ShaderPipeline.Schema
