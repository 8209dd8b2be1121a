import Mathlib.Data.List.Forall2
import ShaderPipeline.Proofs.Text.Stripping

/-! Texts without comments. They are the texts that removal leaves as they are, and what it leaves
of any text is one of them, line by line a part of what was there. -/

namespace ShaderPipeline.Text

/-- Whether a string is open behind one more character. A quote opens one; the next quote or the
end of the line ends it. -/
def quotedNext (quoted : Bool) (c : Char) : Bool :=
  if quoted then c != '"' && c != '\n' else c == '"'

/-- No comment starts outside strings, where a string may be open at the start. -/
def FreeFrom (quoted : Bool) (text : Text) : Prop :=
  ∀ before mark after, text = before ++ '/' :: mark :: after →
    before.foldl quotedNext quoted = false → mark ≠ '/' ∧ mark ≠ '*'

/-- Outside strings there is neither `//` nor `/*`. -/
def CommentFree (text : Text) : Prop := FreeFrom false text

theorem freeFrom_nil (quoted : Bool) : FreeFrom quoted [] := by
  intro before mark after same
  simp at same

theorem freeFrom_cons {quoted : Bool} {c : Char} {rest : Text} :
    FreeFrom quoted (c :: rest) ↔
      (quoted = false → c = '/' → ∀ mark ∈ rest.head?, mark ≠ '/' ∧ mark ≠ '*') ∧
        FreeFrom (quotedNext quoted c) rest := by
  constructor
  · intro free
    refine ⟨?_, fun before mark after same => free (c :: before) mark after (by rw [same]; rfl)⟩
    rintro rfl rfl mark first
    obtain ⟨after, rfl⟩ := List.head?_eq_some_iff.mp first
    exact free [] mark after rfl rfl
  · rintro ⟨here, later⟩ before mark after same outside
    cases before with
    | nil =>
      obtain ⟨rfl, rfl⟩ := List.cons.inj same
      exact here outside rfl mark rfl
    | cons d before =>
      obtain ⟨rfl, rfl⟩ := List.cons.inj same
      exact later before mark after rfl outside

/-- What stands at the start of a text without comments has none either. -/
theorem CommentFree.of_start {first second : Text} (free : CommentFree second)
    (starts : first <+: second) : CommentFree first := by
  obtain ⟨rest, rfl⟩ := starts
  rintro before mark after rfl
  exact free before mark (after ++ rest) (by simp)

namespace CommentState

/-- A reader of a text without comments stands in a string or in code. -/
def ofQuoted (quoted : Bool) : CommentState := if quoted then .quoted else .code

/-- A slash that starts no comment is released before what stands behind it. -/
theorem stripped_slash {rest : Text} (apart : ∀ mark ∈ rest.head?, mark ≠ '/' ∧ mark ≠ '*') :
    CommentState.slash.stripped rest = '/' :: CommentState.code.stripped rest := by
  cases rest with
  | nil => rfl
  | cons mark after =>
    obtain ⟨noLine, noBlock⟩ := apart mark rfl
    simp [stripped_cons, released, next, noLine, noBlock]

/-- A comment costs its text at least one character. -/
theorem stripped_slash_ne {rest : Text} {mark : Char} (first : rest.head? = some mark)
    (starts : mark = '/' ∨ mark = '*') : CommentState.slash.stripped rest ≠ '/' :: rest := by
  obtain ⟨after, rfl⟩ := List.head?_eq_some_iff.mp first
  have comment : (CommentState.slash.next mark).pending = [] ∧
      CommentState.slash.released mark = [] := by
    rcases starts with rfl | rfl <;> exact ⟨rfl, rfl⟩
  intro same
  have bounded := ((CommentState.slash.next mark).stripped_sublist after).length_le
  rw [comment.1, List.nil_append] at bounded
  have longer := congrArg List.length same
  rw [stripped_cons, comment.2, List.nil_append, List.length_cons, List.length_cons] at longer
  omega

/-- A reader in a string or in code leaves exactly the texts without comments as they are. -/
theorem stripped_ofQuoted_eq_self_iff (quoted : Bool) (text : Text) :
    (ofQuoted quoted).stripped text = text ↔ FreeFrom quoted text := by
  induction text generalizing quoted with
  | nil => cases quoted <;> simp [freeFrom_nil, ofQuoted, stripped, emitted, after, pending]
  | cons c rest ih =>
    rw [freeFrom_cons, stripped_cons, ← ih]
    by_cases slash : quoted = false ∧ c = '/'
    · obtain ⟨rfl, rfl⟩ := slash
      have read : (ofQuoted false).released '/' ++ ((ofQuoted false).next '/').stripped rest =
          CommentState.slash.stripped rest := rfl
      rw [read]
      by_cases apart : ∀ mark ∈ rest.head?, mark ≠ '/' ∧ mark ≠ '*'
      · rw [stripped_slash apart, List.cons_inj_right]
        exact ⟨fun same => ⟨fun _ _ => apart, same⟩, And.right⟩
      · obtain ⟨mark, first, starts⟩ : ∃ mark, rest.head? = some mark ∧ (mark = '/' ∨ mark = '*') := by
          simpa only [not_forall, exists_prop, not_and_or, not_not, Option.mem_def] using apart
        exact iff_of_false (stripped_slash_ne first starts) fun free => apart (free.1 rfl rfl)
    · have released : (ofQuoted quoted).released c = [c] := by
        cases quoted <;> simp_all [ofQuoted, CommentState.released]
      have next : (ofQuoted quoted).next c = ofQuoted (quotedNext quoted c) := by
        cases quoted <;> grind [ofQuoted, quotedNext, CommentState.next]
      have noComment : quoted = false → c = '/' → ∀ mark ∈ rest.head?, mark ≠ '/' ∧ mark ≠ '*' :=
        fun outside mark => absurd ⟨outside, mark⟩ slash
      rw [released, next, List.singleton_append, List.cons_inj_right]
      exact ⟨fun same => ⟨noComment, same⟩, And.right⟩

end CommentState

/-- Removal leaves exactly the texts without comments as they are. -/
theorem stripComments_eq_self_iff {text : Text} : stripComments text = text ↔ CommentFree text :=
  CommentState.stripped_ofQuoted_eq_self_iff false text

theorem commentFree_stripComments (text : Text) : CommentFree (stripComments text) :=
  stripComments_eq_self_iff.mp (stripComments_stripComments text)

/-- The code of a line is part of the line, in whatever state a line starts. -/
theorem forall₂_sublist_codesFrom {state : CommentState} (start : state.AtStart)
    (lines : List Text) : List.Forall₂ List.Sublist (codesFrom state lines) lines := by
  induction lines generalizing state with
  | nil => exact .nil
  | cons line rest ih =>
    have part := state.stripped_sublist line
    have none : state.pending = [] := by rcases start with rfl | rfl <;> rfl
    rw [none, List.nil_append] at part
    exact .cons part (ih (state.atStart_afterLine line))

/-- Removing comments settles a text at once. It leaves the lines in their places, each with a
part of what was there, and no start of a comment outside strings. -/
theorem stripComments_settles (text : Text) :
    stripComments (stripComments text) = stripComments text ∧
      (stripComments text).count '\n' = text.count '\n' ∧
      List.Forall₂ List.Sublist (splitEvery '\n' (stripComments text)) (splitEvery '\n' text) ∧
      CommentFree (stripComments text) ∧ (stripComments text = text ↔ CommentFree text) := by
  have parts : List.Forall₂ List.Sublist (splitEvery '\n' (stripComments text))
      (splitEvery '\n' text) := by
    rw [stripComments_eq, splitEvery_stripped]
    exact forall₂_sublist_codesFrom (.inl rfl) _
  exact ⟨stripComments_stripComments text, count_stripComments text, parts,
    commentFree_stripComments text, stripComments_eq_self_iff⟩

end ShaderPipeline.Text
