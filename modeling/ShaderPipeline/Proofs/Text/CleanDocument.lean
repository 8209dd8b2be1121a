import ShaderPipeline.Proofs.Text.CommentFree
import ShaderPipeline.Text.Document

/-! The normal form of documents: lines that are filled, end in no blank and have no comment, each
ended by a newline. Cleaning a document brings it into this form and leaves a document of this form
as it is. -/

namespace ShaderPipeline.Text

/-! ### Parts of lines -/

private theorem trimEnd_starts (line : Text) : trimEnd line <+: line := by
  have behind := List.reverse_prefix.mpr (List.dropWhile_suffix isBlank (l := line.reverse))
  rwa [List.reverse_reverse] at behind

private theorem isBlank_of_getLast?_trimEnd {line : Text} :
    ∀ c ∈ (trimEnd line).getLast?, isBlank c = false := by
  intro c last
  have stops := List.head?_dropWhile_not isBlank line.reverse
  rw [trimEnd, List.getLast?_reverse] at last
  rw [Option.mem_def.mp last] at stops
  simpa using stops

/-! ### Lines without comments -/

/-- A newline ends a string, so a text has no comments if it has none on either side. -/
theorem freeFrom_append_newline {quoted : Bool} {first second : Text} :
    FreeFrom quoted (first ++ '\n' :: second) ↔ FreeFrom quoted first ∧ CommentFree second := by
  induction first generalizing quoted with
  | nil =>
    have ended : quotedNext quoted '\n' = false := by cases quoted <;> rfl
    simp [freeFrom_cons, freeFrom_nil, ended, CommentFree]
  | cons c rest ih =>
    rw [List.cons_append, freeFrom_cons, freeFrom_cons, ih, and_assoc]
    -- At the end of the line the newline stands behind a slash, and starts nothing with it.
    cases rest <;> simp

private theorem commentFree_endLines {lines : List Text} (free : ∀ line ∈ lines, CommentFree line) :
    CommentFree (endLines lines) := by
  induction lines with
  | nil => exact freeFrom_nil false
  | cons line rest ih =>
    obtain ⟨here, others⟩ := List.forall_mem_cons.mp free
    rw [endLines_cons]
    exact freeFrom_append_newline.mpr ⟨here, ih others⟩

theorem CommentFree.of_mem_joinLines {lines : List Text} (free : CommentFree (joinLines lines)) :
    ∀ line ∈ lines, CommentFree line := by
  induction lines with
  | nil => exact fun _ absent => (nomatch absent)
  | cons line rest ih =>
    by_cases last : rest = []
    · rw [last, joinLines_singleton] at free
      simpa [last] using free
    · have joined := joinLines_append (List.cons_ne_nil line []) last
      rw [List.singleton_append, joinLines_singleton] at joined
      rw [joined] at free
      obtain ⟨here, others⟩ := freeFrom_append_newline.mp free
      exact List.forall_mem_cons.mpr ⟨here, ih others⟩

theorem CommentFree.of_mem_lines {text line : Text} (free : CommentFree text)
    (member : line ∈ lines text) : CommentFree line := by
  obtain ⟨piece, present, starts⟩ := exists_prefix_of_mem_linesOfPieces member
  have whole : CommentFree (joinLines (splitEvery '\n' text)) := by
    rwa [joinLines, intercalate_splitEvery]
  exact (whole.of_mem_joinLines piece present).of_start starts

/-! ### Clean documents -/

/-- A line of a clean document. -/
structure CleanLine (line : Text) : Prop extends Whole line where
  free : CommentFree line

/-- The lines that are left of a document, blanks at their ends removed. -/
def cleanLines (text : Text) : List Text :=
  ((lines (stripComments text)).map trimEnd).filter fun line => !line.isEmpty

private theorem cleanDocument_eq (text : Text) :
    cleanDocument text = endLines (cleanLines text) := rfl

theorem cleanLine_of_mem_cleanLines {text line : Text} (member : line ∈ cleanLines text) :
    CleanLine line := by
  obtain ⟨trimmed, filled⟩ := List.mem_filter.mp member
  obtain ⟨whole, present, rfl⟩ := List.mem_map.mp trimmed
  have starts := trimEnd_starts whole
  exact {
    single := fun inside => notMem_of_mem_lines present (starts.subset inside)
    filled := by simpa using filled
    ended := isBlank_of_getLast?_trimEnd
    free := ((commentFree_stripComments text).of_mem_lines present).of_start starts }

theorem lines_cleanDocument (text : Text) : lines (cleanDocument text) = cleanLines text :=
  lines_endLines_of_whole fun _ member => (cleanLine_of_mem_cleanLines member).toWhole

/-- Lines in the normal form are what cleaning leaves of them. -/
theorem cleanDocument_endLines {lines : List Text} (clean : ∀ line ∈ lines, CleanLine line) :
    cleanDocument (endLines lines) = endLines lines := by
  have kept : stripComments (endLines lines) = endLines lines :=
    stripComments_eq_self_iff.mpr (commentFree_endLines fun line member => (clean line member).free)
  have read : Text.lines (endLines lines) = lines :=
    lines_endLines_of_whole fun line member => (clean line member).toWhole
  have trimmed : lines.map trimEnd = lines := by
    conv => rhs; rw [← List.map_id lines]
    exact List.map_congr_left fun line member => trimEnd_eq_self (clean line member).ended
  have filled : lines.filter (fun line => !line.isEmpty) = lines :=
    List.filter_eq_self.mpr fun line member => by simpa using (clean line member).filled
  rw [cleanDocument_eq, cleanLines, kept, read, trimmed, filled]

/-- The lines of a cleaned document are filled, end in no blank and have no comment. The document
is these lines with a newline each, and cleaning it again changes nothing. -/
theorem cleanDocument_normalForm (text : Text) :
    (∀ line ∈ lines (cleanDocument text),
        line ≠ [] ∧ (∀ c ∈ line.getLast?, isBlank c = false) ∧ CommentFree line) ∧
      cleanDocument text = endLines (lines (cleanDocument text)) ∧
      (cleanDocument text = [] ∨ (cleanDocument text).getLast? = some '\n') ∧
      cleanDocument (cleanDocument text) = cleanDocument text := by
  have clean : ∀ line ∈ cleanLines text, CleanLine line := fun line => cleanLine_of_mem_cleanLines
  have read := lines_cleanDocument text
  refine ⟨?_, ?_, ?_, cleanDocument_endLines clean⟩
  · rw [read]
    intro line member
    obtain ⟨⟨_, filled, ended⟩, free⟩ := clean line member
    exact ⟨filled, ended, free⟩
  · rw [read, cleanDocument_eq]
  · rw [cleanDocument_eq]
    rcases List.eq_nil_or_concat (cleanLines text) with none | ⟨before, last, more⟩
    · left
      rw [none]
      rfl
    · right
      rw [more, List.concat_eq_append, endLines, List.flatMap_append]
      simp

end ShaderPipeline.Text
