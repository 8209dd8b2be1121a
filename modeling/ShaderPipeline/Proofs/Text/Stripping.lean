import ShaderPipeline.Proofs.Text.Directives

/-! Texts whose comments are removed already. They keep what they have, and each of their lines is
its own code. -/

namespace ShaderPipeline.Text

namespace CommentState

/-- Where a reader of the code alone stands, a waiting slash apart. -/
def outside : CommentState → CommentState
  | .quoted => .quoted
  | _ => .code

/-- What one character releases is released once more, and leaves the reader outside comments. -/
theorem outside_released (state : CommentState) (c : Char) (rest : Text) :
    state.outside.stripped (state.released c ++ rest) =
      state.released c ++ (state.next c).outside.stripped rest := by
  cases state with
  | code => by_cases mark : c = '/' <;> by_cases quote : c = '"' <;>
      simp [outside, released, next, mark, quote, stripped_cons]
  | slash => by_cases mark : c = '/' <;> by_cases star : c = '*' <;> by_cases quote : c = '"' <;>
      simp [outside, released, next, mark, star, quote, stripped_cons]
  | quoted => by_cases ends : c = '"' ∨ c = '\n' <;>
      simp [outside, released, next, ends, stripped_cons]
  | line => by_cases ends : c = '\n' <;>
      simp [outside, released, next, ends, stripped_cons]
  | block star => by_cases ends : c = '\n' <;> by_cases closes : star ∧ c = '/' <;>
      simp [outside, released, next, ends, closes, stripped_cons]

private theorem outside_stripped (state : CommentState) (text : Text) :
    state.outside.stripped (state.stripped text) = state.stripped text := by
  induction text generalizing state with
  | nil => cases state <;> rfl
  | cons c rest ih => rw [stripped_cons, outside_released, ih]

end CommentState

theorem stripComments_stripComments (text : Text) :
    stripComments (stripComments text) = stripComments text :=
  CommentState.outside_stripped .code text

/-! ### Lines as they show -/

/-- Lines without the blanks around them, those that are blank throughout left out. -/
def shownLines (lines : List Text) : List Text := (lines.map trim).filter (!·.isEmpty)

/-- The lines of a text as they show. -/
def shown (text : Text) : List Text := shownLines (lines text)

theorem shownLines_append (first second : List Text) :
    shownLines (first ++ second) = shownLines first ++ shownLines second := by
  simp [shownLines]

theorem trim_dropReturn (line : Text) : trim (dropReturn line) = trim line := by
  rcases dropReturn_cases line with same | longer
  · rw [same]
  · conv => rhs; rw [longer, trim_append_blank rfl]

theorem exists_piece {pieces : List Text} {line : Text} (member : line ∈ linesOfPieces pieces) :
    ∃ piece ∈ pieces, trim line = trim piece := by
  obtain ⟨piece, present, rfl | rfl⟩ := eq_or_dropReturn_of_mem_linesOfPieces member
  · exact ⟨line, present, rfl⟩
  · exact ⟨piece, present, trim_dropReturn piece⟩

private theorem shownLines_linesOfPieces (pieces : List Text) :
    shownLines (linesOfPieces pieces) = shownLines pieces := by
  induction pieces with
  | nil => rfl
  | cons line rest ih =>
    cases rest with
    | nil => cases line <;> rfl
    | cons next rest =>
      have same : shownLines [dropReturn line] = shownLines [line] := by
        simp only [shownLines, List.map_cons, List.map_nil, trim_dropReturn]
      rw [linesOfPieces, ← List.singleton_append, shownLines_append, same, ih, ← shownLines_append,
        List.singleton_append]

private theorem shown_eq (text : Text) : shown text = shownLines (splitEvery '\n' text) :=
  shownLines_linesOfPieces _

private theorem shown_joinLines {lines : List Text} (single : ∀ line ∈ lines, '\n' ∉ line) :
    shown (joinLines lines) = shownLines lines := by
  rw [shown_eq]
  by_cases none : lines = []
  · rw [none]
    rfl
  · rw [splitEvery_joinLines none single]

/-- Without comments, each line shows its code as it is read behind the lines before it. -/
theorem shown_stripComments_joinLines {lines : List Text} (single : ∀ line ∈ lines, '\n' ∉ line) :
    shown (stripComments (joinLines lines)) = shownLines (codesFrom .code lines) := by
  rw [shown_eq, stripComments_eq, splitEvery_stripped]
  by_cases none : lines = []
  · rw [none]
    rfl
  · rw [splitEvery_joinLines none single]

/-- Lines that are joined with their comments show the same as their codes joined if each shows
behind the others what its code shows. -/
theorem shown_stripComments_kept_iff {kept : List (Text × Text)}
    (single : ∀ pair ∈ kept, '\n' ∉ pair.1 ∧ '\n' ∉ pair.2) :
    shown (stripComments (joinLines (kept.map Prod.fst))) = shown (joinLines (kept.map Prod.snd)) ↔
      shownLines (codesFrom .code (kept.map Prod.fst)) = shownLines (kept.map Prod.snd) := by
  have raw : ∀ line ∈ kept.map Prod.fst, '\n' ∉ line :=
    List.forall_mem_map.mpr fun pair member => (single pair member).1
  have code : ∀ line ∈ kept.map Prod.snd, '\n' ∉ line :=
    List.forall_mem_map.mpr fun pair member => (single pair member).2
  rw [shown_stripComments_joinLines raw, shown_joinLines code]

end ShaderPipeline.Text

namespace ShaderPipeline.Include

open Text

private theorem map_snd_pairsFrom (state : CommentState) (pieces : List Text) :
    (pairsFrom state pieces).map Prod.snd = linesOfPieces (codesFrom state pieces) := by
  induction pieces generalizing state with
  | nil => rfl
  | cons line rest ih =>
    cases rest with
    | nil =>
      rw [pairsFrom, codesFrom, codesFrom, linesOfPieces]
      split <;> rfl
    | cons next rest =>
      rw [pairsFrom, List.map_cons, ih]
      rfl

/-- Every line without comments has its line with comments. -/
theorem map_snd_linesWithCode (text : Text) :
    (linesWithCode text).map Prod.snd = lines (stripComments text) := by
  rw [linesWithCode_eq, map_snd_pairsFrom, Text.lines, stripComments_eq, splitEvery_stripped]

/-- Where comments are removed already, each line is its own code. -/
theorem linesWithCode_stripComments (text : Text) :
    linesWithCode (stripComments text) =
      (linesWithCode text).map fun pair => (pair.2, pair.2) := by
  have own (codes : List Text) : codes.zip codes = codes.map fun code => (code, code) := by
    induction codes with
    | nil => rfl
    | cons code rest ih => rw [List.zip_cons_cons, ih, List.map_cons]
  rw [linesWithCode, stripComments_stripComments, own, ← map_snd_linesWithCode, List.map_map]
  rfl

end ShaderPipeline.Include
