import ShaderPipeline.Include.Expansion
import ShaderPipeline.Proofs.Text.Lines

/-! How comments carry over from one line to the next. A newline ends everything but a block
comment, so a text is read line by line with one state between the lines. -/

namespace ShaderPipeline.Text

namespace CommentState

/-- What a text leaves without its comments when it is read from `state`. -/
def stripped (state : CommentState) (text : Text) : Text :=
  state.emitted text ++ (state.after text).pending

/-- The state at the start of the line after a text. -/
def afterLine (state : CommentState) (text : Text) : CommentState := (state.after text).next '\n'

/-- A state in which a line can start. -/
def AtStart (state : CommentState) : Prop := state = .code ∨ state = .block false

theorem atStart_afterLine (state : CommentState) (text : Text) :
    (state.afterLine text).AtStart := by
  rw [afterLine]
  cases state.after text <;> simp [next, AtStart]

theorem AtStart.stripped_nil {state : CommentState} (start : state.AtStart) :
    state.stripped [] = [] := by
  rcases start with rfl | rfl <;> rfl

/-- A newline releases itself, and the slash that waits for what comes after it. -/
theorem released_newline (state : CommentState) :
    state.released '\n' = state.pending ++ ['\n'] := by
  cases state <;> rfl

theorem stripped_cons (state : CommentState) (c : Char) (rest : Text) :
    state.stripped (c :: rest) = state.released c ++ (state.next c).stripped rest := by
  simp [stripped, emitted, after]

/-- One character releases no more than what waits and itself, less what waits from then on. -/
theorem released_sublist (state : CommentState) (c : Char) :
    (state.released c ++ (state.next c).pending).Sublist (state.pending ++ [c]) := by
  cases state with
  | code => by_cases mark : c = '/' <;> by_cases quote : c = '"' <;>
      simp [released, next, pending, mark, quote]
  | slash => by_cases mark : c = '/' <;> by_cases star : c = '*' <;> by_cases quote : c = '"' <;>
      simp [released, next, pending, mark, star, quote]
  | quoted => by_cases ends : c = '"' ∨ c = '\n' <;> simp [released, next, pending, ends]
  | line => by_cases ends : c = '\n' <;> simp [released, next, pending, ends]
  | block star => by_cases ends : c = '\n' <;> by_cases closes : star ∧ c = '/' <;>
      simp [released, next, pending, ends, closes]

/-- Nothing is moved or added: what a reader leaves is part of what waits and what it reads. -/
theorem stripped_sublist (state : CommentState) (text : Text) :
    (state.stripped text).Sublist (state.pending ++ text) := by
  induction text generalizing state with
  | nil => simp [stripped, emitted, after]
  | cons c rest ih =>
    have here := (state.released_sublist c).append_right rest
    have later := (ih (state.next c)).append_left (state.released c)
    rw [List.append_assoc] at here
    rw [stripped_cons, List.append_cons]
    exact later.trans here

private theorem stripped_append_newline (state : CommentState) (first second : Text) :
    state.stripped (first ++ '\n' :: second) =
      state.stripped first ++ '\n' :: (state.afterLine first).stripped second := by
  simp [stripped, emitted_append, emitted, released_newline, afterLine, after]

/-- A carriage return before the newline changes nothing about the next line. -/
theorem afterLine_append_return (state : CommentState) (text : Text) :
    state.afterLine (text ++ ['\r']) = state.afterLine text := by
  rw [afterLine, afterLine, after_append]
  cases state.after text <;> simp [after, next]

/-- A carriage return at the end is kept or belongs to a comment. -/
theorem stripped_append_return (state : CommentState) (text : Text) :
    state.stripped (text ++ ['\r']) = state.stripped text ++ ['\r'] ∨
      state.stripped (text ++ ['\r']) = state.stripped text := by
  simp only [stripped, emitted_append, after_append]
  cases state.after text <;> simp [after, emitted, next, released, pending]

theorem count_stripped (state : CommentState) (text : Text) :
    (state.stripped text).count '\n' = text.count '\n' := by
  rw [stripped, List.count_append, count_emitted]
  cases state.after text <;> simp [pending]

end CommentState

theorem stripComments_eq (text : Text) : stripComments text = CommentState.code.stripped text := rfl

private theorem splitEvery_append {mark : Char} {first : Text} (absent : mark ∉ first)
    (second : Text) :
    splitEvery mark (first ++ second) = (splitEvery mark second).modifyHead (first ++ ·) := by
  induction first with
  | nil => cases split : splitEvery mark second <;> simp [split]
  | cons c rest ih =>
    rw [List.mem_cons, not_or] at absent
    obtain ⟨head, tail, split⟩ := List.exists_cons_of_ne_nil (splitEvery_ne_nil mark second)
    simp [splitEvery, Ne.symm absent.1, ih absent.2, split]

/-- The code of each line, where the first one is read from `state`. -/
def codesFrom : CommentState → List Text → List Text
  | _, [] => []
  | state, line :: rest => state.stripped line :: codesFrom (state.afterLine line) rest

theorem splitEvery_stripped (state : CommentState) (text : Text) :
    splitEvery '\n' (state.stripped text) = codesFrom state (splitEvery '\n' text) := by
  induction text generalizing state with
  | nil =>
    have single : '\n' ∉ state.stripped [] := by
      rw [← List.count_eq_zero, CommentState.count_stripped]
      rfl
    rw [splitEvery_of_notMem single]
    rfl
  | cons c rest ih =>
    by_cases newline : c = '\n'
    · subst newline
      have waits : '\n' ∉ state.pending := by cases state <;> simp [CommentState.pending]
      rw [CommentState.stripped_cons, CommentState.released_newline, List.append_assoc,
        List.singleton_append, splitEvery_append_cons, splitEvery_of_notMem waits, ih]
      rfl
    · have single : '\n' ∉ state.released c := by
        cases state <;> simp only [CommentState.released] <;> grind
      obtain ⟨head, tail, split⟩ := List.exists_cons_of_ne_nil (splitEvery_ne_nil '\n' rest)
      rw [CommentState.stripped_cons, splitEvery_append single, ih, splitEvery]
      simp only [newline, ↓reduceIte, split, codesFrom, List.modifyHead_cons,
        CommentState.stripped_cons]
      rfl

/-- What a carriage return at the end of a line leaves unchanged, the end of the line leaves
unchanged. -/
theorem dropReturn_cases (line : Text) :
    dropReturn line = line ∨ line = dropReturn line ++ ['\r'] := by
  by_cases last : line.getLast? = some '\r'
  · obtain ⟨start, rfl⟩ := List.getLast?_eq_some_iff.mp last
    simp [dropReturn]
  · exact .inl (if_neg last)

theorem CommentState.afterLine_dropReturn (state : CommentState) (line : Text) :
    state.afterLine (dropReturn line) = state.afterLine line := by
  rcases dropReturn_cases line with same | longer
  · rw [same]
  · conv => rhs; rw [longer]
    rw [afterLine_append_return]

/-! ### Lines that show -/

/-- The lines of a text without comments that are not blank. -/
def visible (text : Text) : List Text := (lines (stripComments text)).filter (!·.all isBlank)

/-- The same lines when a newline follows. -/
def visibleEnded (text : Text) : List Text :=
  (endedLines (stripComments text)).filter (!·.all isBlank)

/-- The lines of `text` that show when it is read from `state`. -/
def visibleFrom (state : CommentState) (text : Text) : List Text :=
  (lines (state.stripped text)).filter (!·.all isBlank)

private theorem all_blank_dropReturn (line : Text) :
    (dropReturn line).all isBlank = line.all isBlank := by
  have blank : isBlank '\r' = true := rfl
  rcases dropReturn_cases line with same | longer
  · rw [same]
  · conv => rhs; rw [longer]
    simp [blank]

/-- A newline shows no further line, and takes none away. -/
theorem length_visibleEnded (text : Text) : (visibleEnded text).length = (visible text).length := by
  rw [visibleEnded, visible, endedLines, lines]
  generalize splitEvery '\n' (stripComments text) = pieces
  induction pieces with
  | nil => rfl
  | cons line rest ih =>
    cases rest with
    | nil =>
      cases line with
      | nil => rfl
      | cons c others =>
        simp only [List.map_cons, List.map_nil, linesOfPieces, List.isEmpty_cons,
          Bool.false_eq_true, ↓reduceIte, List.filter_cons, all_blank_dropReturn]
        split <;> rfl
    | cons next rest =>
      rw [List.map_cons, linesOfPieces, List.filter_cons, List.filter_cons]
      split <;> simp only [List.length_cons, ih]

theorem visible_append_newline (first second : Text) :
    visible (first ++ '\n' :: second) =
      visibleEnded first ++ visibleFrom (CommentState.code.afterLine first) second := by
  rw [visible, stripComments_eq, CommentState.stripped_append_newline, lines_append_newline,
    List.filter_append]
  rfl

end ShaderPipeline.Text

namespace ShaderPipeline.Include

open Text

/-- The lines of a text that a newline follows, each with its form without comments. -/
def endedWithCode (text : Text) : List (Text × Text) :=
  (endedLines text).zip (endedLines (stripComments text))

/-- A newline after a text separates its lines from those that follow, which are read in the
state that the text leaves. -/
theorem linesWithCode_append_newline (first second : Text) :
    linesWithCode (first ++ '\n' :: second) = endedWithCode first ++
      (lines second).zip (lines ((CommentState.code.afterLine first).stripped second)) := by
  have same : (endedLines first).length = (endedLines (stripComments first)).length := by
    rw [length_endedLines, length_endedLines, count_stripComments]
  rw [linesWithCode, stripComments_eq, CommentState.stripped_append_newline, lines_append_newline,
    lines_append_newline, ← stripComments_eq first, List.zip_append same]
  rfl

/-- Pieces of a text as lines with their code, where the first one is read from `state`. A last
piece without code is no line. -/
def pairsFrom : CommentState → List Text → List (Text × Text)
  | _, [] => []
  | state, [last] =>
    if (state.stripped last).isEmpty then [] else [(last, state.stripped last)]
  | state, line :: next :: rest =>
    (dropReturn line, dropReturn (state.stripped line)) ::
      pairsFrom (state.afterLine line) (next :: rest)

/-- Pieces of a text, each of which a newline ends, with their code. -/
def endedFrom : CommentState → List Text → List (Text × Text)
  | _, [] => []
  | state, line :: rest =>
    (dropReturn line, dropReturn (state.stripped line)) :: endedFrom (state.afterLine line) rest

private theorem pairsFrom_eq {state : CommentState} (start : state.AtStart) (pieces : List Text) :
    pairsFrom state pieces =
      (linesOfPieces pieces).zip (linesOfPieces (codesFrom state pieces)) := by
  induction pieces generalizing state with
  | nil => rfl
  | cons line rest ih =>
    cases rest with
    | nil =>
      by_cases empty : line = []
      · simp [pairsFrom, codesFrom, linesOfPieces, empty, start.stripped_nil]
      · by_cases comment : state.stripped line = [] <;>
          simp [pairsFrom, codesFrom, linesOfPieces, empty, comment]
    | cons next rest =>
      rw [pairsFrom, ih (state.atStart_afterLine line)]
      rfl

theorem linesWithCode_eq (text : Text) :
    linesWithCode text = pairsFrom .code (splitEvery '\n' text) := by
  rw [linesWithCode, Text.lines, Text.lines, stripComments_eq, splitEvery_stripped,
    pairsFrom_eq (.inl rfl)]

theorem endedWithCode_eq (text : Text) :
    endedWithCode text = endedFrom .code (splitEvery '\n' text) := by
  have zipped (state : CommentState) (pieces : List Text) :
      endedFrom state pieces =
        (pieces.map dropReturn).zip ((codesFrom state pieces).map dropReturn) := by
    induction pieces generalizing state with
    | nil => rfl
    | cons line rest ih => rw [endedFrom, ih]; rfl
  rw [endedWithCode, endedLines, endedLines, stripComments_eq, splitEvery_stripped, zipped]

end ShaderPipeline.Include
