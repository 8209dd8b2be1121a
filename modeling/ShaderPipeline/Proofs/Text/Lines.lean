import ShaderPipeline.Text.Lines

/-! Lines of a text that is put together at newlines. -/

namespace ShaderPipeline.Text

theorem splitEvery_append_cons (mark : Char) (first second : Text) :
    splitEvery mark (first ++ mark :: second) =
      splitEvery mark first ++ splitEvery mark second := by
  induction first with
  | nil => simp [splitEvery]
  | cons c rest ih =>
    by_cases same : c = mark
    · simp [splitEvery, same, ih]
    · obtain ⟨head, tail, split⟩ := List.exists_cons_of_ne_nil (splitEvery_ne_nil mark rest)
      simp [splitEvery, same, ih, split]

theorem splitEvery_of_notMem {mark : Char} {text : Text} (absent : mark ∉ text) :
    splitEvery mark text = [text] := by
  induction text with
  | nil => rfl
  | cons c rest ih =>
    rw [List.mem_cons, not_or] at absent
    simp [splitEvery, Ne.symm absent.1, ih absent.2]

theorem notMem_of_mem_splitEvery {mark : Char} {text piece : Text}
    (member : piece ∈ splitEvery mark text) : mark ∉ piece := by
  induction text generalizing piece with
  | nil =>
    rw [splitEvery, List.mem_singleton] at member
    simp [member]
  | cons c rest ih =>
    obtain ⟨head, tail, split⟩ := List.exists_cons_of_ne_nil (splitEvery_ne_nil mark rest)
    rw [split] at ih
    by_cases same : c = mark
    · simp only [splitEvery, same, ↓reduceIte, split, List.mem_cons] at member
      rcases member with rfl | member
      · simp
      · exact ih (List.mem_cons.mpr member)
    · simp only [splitEvery, same, ↓reduceIte, split, List.mem_cons] at member
      rcases member with rfl | member
      · simpa [Ne.symm same] using ih (by simp)
      · exact ih (by simp [member])

private theorem length_splitEvery (mark : Char) (text : Text) :
    (splitEvery mark text).length = text.count mark + 1 := by
  induction text with
  | nil => rfl
  | cons c rest ih =>
    by_cases same : c = mark
    · simp [splitEvery, same, ih]
    · obtain ⟨head, tail, split⟩ := List.exists_cons_of_ne_nil (splitEvery_ne_nil mark rest)
      rw [split] at ih
      simpa [splitEvery, same, split] using ih

private theorem linesOfPieces_append (ended : List Text) {rest : List Text} (more : rest ≠ []) :
    linesOfPieces (ended ++ rest) = ended.map dropReturn ++ linesOfPieces rest := by
  induction ended with
  | nil => rfl
  | cons line others ih =>
    obtain ⟨next, tail, same⟩ := List.exists_cons_of_ne_nil
      (show others ++ rest ≠ [] by simp [more])
    rw [List.map_cons, List.cons_append, List.cons_append, ← ih, same]
    rfl

/-- The lines of a text whose every line is ended by a newline. -/
def endedLines (text : Text) : List Text := (splitEvery '\n' text).map dropReturn

theorem lines_append_newline (first second : Text) :
    lines (first ++ '\n' :: second) = endedLines first ++ lines second := by
  rw [lines, splitEvery_append_cons, linesOfPieces_append _ (splitEvery_ne_nil _ _)]
  rfl

theorem length_endedLines (text : Text) : (endedLines text).length = text.count '\n' + 1 := by
  rw [endedLines, List.length_map, length_splitEvery]

/-- Without a carriage return before its newline a line stays as it is. -/
theorem dropReturn_of_notMem {line : Text} (absent : '\r' ∉ line) : dropReturn line = line := by
  rw [dropReturn, if_neg]
  intro last
  exact absent (List.mem_of_getLast? last)

theorem joinLines_append {first second : List Text} (some : first ≠ []) (more : second ≠ []) :
    joinLines (first ++ second) = joinLines first ++ '\n' :: joinLines second := by
  induction first with
  | nil => exact absurd rfl some
  | cons line rest ih =>
    rw [joinLines, joinLines, List.cons_append,
      List.intercalate_cons_of_ne_nil (by simp [more])]
    by_cases last : rest = []
    · simp [last, joinLines]
    · rw [List.intercalate_cons_of_ne_nil last]
      have inner := ih last
      rw [joinLines, joinLines] at inner
      simp [inner]

theorem splitEvery_joinLines {lines : List Text} (some : lines ≠ [])
    (single : ∀ line ∈ lines, '\n' ∉ line) : splitEvery '\n' (joinLines lines) = lines := by
  induction lines with
  | nil => exact absurd rfl some
  | cons line rest ih =>
    have alone := splitEvery_of_notMem (single line (by simp))
    by_cases last : rest = []
    · simp [last, joinLines, alone]
    · have joined := joinLines_append (List.cons_ne_nil line []) last
      rw [List.singleton_append] at joined
      rw [joined, splitEvery_append_cons,
        ih last fun other member => single other (by simp [member])]
      simp [joinLines, alone]

theorem dropReturn_starts (line : Text) : dropReturn line <+: line := by
  rw [dropReturn]
  split
  · exact List.dropLast_prefix line
  · exact List.prefix_rfl

/-- A line is a piece between newlines, up to a carriage return. -/
theorem eq_or_dropReturn_of_mem_linesOfPieces {pieces : List Text} {line : Text}
    (member : line ∈ linesOfPieces pieces) :
    ∃ piece ∈ pieces, line = piece ∨ line = dropReturn piece := by
  induction pieces with
  | nil => cases member
  | cons first rest ih =>
    cases rest with
    | nil =>
      rw [linesOfPieces] at member
      split at member
      · cases member
      · exact ⟨line, member, .inl rfl⟩
    | cons next rest =>
      rcases List.mem_cons.mp member with rfl | later
      · exact ⟨first, List.mem_cons_self, .inr rfl⟩
      · obtain ⟨piece, present, same⟩ := ih later
        exact ⟨piece, List.mem_cons_of_mem first present, same⟩

theorem exists_prefix_of_mem_linesOfPieces {pieces : List Text} {line : Text}
    (member : line ∈ linesOfPieces pieces) : ∃ piece ∈ pieces, line <+: piece := by
  obtain ⟨piece, present, rfl | rfl⟩ := eq_or_dropReturn_of_mem_linesOfPieces member
  · exact ⟨line, present, List.prefix_rfl⟩
  · exact ⟨piece, present, dropReturn_starts piece⟩

theorem notMem_of_mem_lines {text line : Text} (member : line ∈ Text.lines text) : '\n' ∉ line := by
  obtain ⟨piece, present, starts⟩ := exists_prefix_of_mem_linesOfPieces member
  exact fun inside => notMem_of_mem_splitEvery present (starts.subset inside)

theorem exists_splitEvery_eq (text : Text) :
    ∃ before last, splitEvery '\n' text = before ++ [last] := by
  obtain ⟨before, last, pieces⟩ :=
    (List.eq_nil_or_concat (splitEvery '\n' text)).resolve_left (splitEvery_ne_nil _ _)
  exact ⟨before, last, by rw [pieces, List.concat_eq_append]⟩

theorem joinLines_singleton (line : Text) : joinLines [line] = line := by simp [joinLines]

theorem joinLines_concat {lines : List Text} (some : lines ≠ []) (last : Text) :
    joinLines (lines ++ [last]) = joinLines lines ++ '\n' :: last := by
  rw [joinLines_append some (List.cons_ne_nil last []), joinLines_singleton]

theorem getLast?_joinLines_concat (lines : List Text) {last : Text} (filled : last ≠ []) :
    (joinLines (lines ++ [last])).getLast? = last.getLast? := by
  by_cases none : lines = []
  · rw [none, List.nil_append, joinLines_singleton]
  · obtain ⟨start, c, same⟩ := (List.eq_nil_or_concat last).resolve_left filled
    rw [joinLines_concat none, same, List.concat_eq_append, ← List.cons_append, ← List.append_assoc,
      List.getLast?_concat, List.getLast?_concat]

theorem dropTrailing_eq_self {mark : Char} {text : Text} (last : ∀ c ∈ text.getLast?, c ≠ mark) :
    dropTrailing mark text = text := by
  rw [dropTrailing]
  cases ends : text.reverse with
  | nil => rw [List.dropWhile_nil, ← ends, List.reverse_reverse]
  | cons c rest =>
    have other : c ≠ mark := last c (by rw [Option.mem_def, ← List.head?_reverse, ends]; rfl)
    rw [List.dropWhile_cons_of_neg (by simpa using other), ← ends, List.reverse_reverse]

@[simp] theorem dropTrailing_concat (mark : Char) (text : Text) :
    dropTrailing mark (text ++ [mark]) = dropTrailing mark text := by
  simp [dropTrailing]

/-- Texts of the same lines have the same lines. -/
theorem joinLines_inj {first second : List Text} (some : first ≠ []) (more : second ≠ [])
    (single : ∀ line ∈ first, '\n' ∉ line) (alsoSingle : ∀ line ∈ second, '\n' ∉ line) :
    joinLines first = joinLines second ↔ first = second := by
  constructor
  · intro same
    rw [← splitEvery_joinLines some single, same, splitEvery_joinLines more alsoSingle]
  · exact congrArg joinLines

theorem dropReturn_eq_self_iff {line : Text} :
    dropReturn line = line ↔ line.getLast? ≠ some '\r' := by
  by_cases last : line.getLast? = some '\r'
  · obtain ⟨start, rfl⟩ := List.getLast?_eq_some_iff.mp last
    simp [dropReturn]
  · simp [dropReturn, last]

/-- Lines that are written with a newline each. -/
def endLines (lines : List Text) : Text := lines.flatMap (· ++ ['\n'])

@[simp] theorem endLines_cons (line : Text) (rest : List Text) :
    endLines (line :: rest) = line ++ '\n' :: endLines rest := by
  simp [endLines]

private theorem endLines_concat (lines : List Text) (last : Text) :
    endLines (lines ++ [last]) = joinLines (lines ++ [last]) ++ ['\n'] := by
  induction lines with
  | nil => simp [endLines, joinLines_singleton]
  | cons line rest ih =>
    have joined : joinLines (line :: (rest ++ [last])) =
        line ++ '\n' :: joinLines (rest ++ [last]) := by
      rw [← List.singleton_append, joinLines_append (by simp) (by simp), joinLines_singleton]
    rw [List.cons_append, endLines_cons, ih, joined, List.append_assoc, List.cons_append]

/-- Lines that are ended by newlines are read off the front of a text. -/
theorem lines_endLines_append {lines : List Text} (single : ∀ line ∈ lines, '\n' ∉ line)
    (rest : Text) : Text.lines (endLines lines ++ rest) =
      lines.map dropReturn ++ Text.lines rest := by
  induction lines with
  | nil => rfl
  | cons line others ih =>
    obtain ⟨here, later⟩ := List.forall_mem_cons.mp single
    rw [endLines_cons, List.append_assoc, List.cons_append, lines_append_newline, ih later,
      endedLines, splitEvery_of_notMem here]
    rfl

theorem lines_endLines {lines : List Text} (single : ∀ line ∈ lines, '\n' ∉ line)
    (clean : '\r' ∉ endLines lines) : Text.lines (endLines lines) = lines := by
  have kept : ∀ line ∈ lines, dropReturn line = id line := by
    intro line member
    apply dropReturn_of_notMem
    intro inside
    exact clean (List.mem_flatMap.mpr ⟨line, member, List.mem_append_left _ inside⟩)
  have read := lines_endLines_append single []
  rwa [List.append_nil, lines_nil, List.append_nil, List.map_congr_left kept, List.map_id] at read

/-- A line that is read back as it was written: it is filled, and no blank ends it. -/
structure Whole (line : Text) : Prop where
  single : '\n' ∉ line
  filled : line ≠ []
  ended : ∀ c ∈ line.getLast?, isBlank c = false

theorem Whole.dropReturn_eq {line : Text} (whole : Whole line) : dropReturn line = line := by
  rw [dropReturn, if_neg]
  intro last
  cases whole.ended '\r' last

private theorem map_dropReturn_of_whole {lines : List Text} (whole : ∀ line ∈ lines, Whole line) :
    lines.map dropReturn = lines := by
  conv => rhs; rw [← List.map_id lines]
  exact List.map_congr_left fun line member => (whole line member).dropReturn_eq

theorem lines_endLines_of_whole {lines : List Text} (whole : ∀ line ∈ lines, Whole line) :
    Text.lines (endLines lines) = lines := by
  have read := lines_endLines_append (fun line member => (whole line member).single) []
  rwa [List.append_nil, lines_nil, List.append_nil, map_dropReturn_of_whole whole] at read

/-- Whole lines that are ended by newlines are joined once the newlines behind the last are gone. -/
theorem dropTrailing_endLines {lines : List Text} (whole : ∀ line ∈ lines, Whole line) :
    dropTrailing '\n' (endLines lines) = joinLines lines := by
  rcases List.eq_nil_or_concat lines with rfl | ⟨before, last, rfl⟩
  · rfl
  · rw [List.concat_eq_append] at whole ⊢
    have own := whole last (by simp)
    rw [endLines_concat, dropTrailing_concat]
    apply dropTrailing_eq_self
    rw [getLast?_joinLines_concat before own.filled]
    rintro c ends rfl
    exact own.single (List.mem_of_getLast? ends)

theorem lines_joinLines {lines : List Text} (whole : ∀ line ∈ lines, Whole line) :
    Text.lines (joinLines lines) = lines := by
  rcases List.eq_nil_or_concat lines with rfl | ⟨before, last, rfl⟩
  · rfl
  · rw [List.concat_eq_append] at whole ⊢
    have single : ∀ line ∈ before ++ [last], '\n' ∉ line := fun line member =>
      (whole line member).single
    have kept : before.map dropReturn = before :=
      map_dropReturn_of_whole fun line member => whole line (List.mem_append_left _ member)
    have filled := (whole last (by simp)).filled
    rw [Text.lines, splitEvery_joinLines (by simp) single, linesOfPieces_append _ (by simp), kept]
    simp [linesOfPieces, filled]

theorem joinLines_ne_nil {lines : List Text} (whole : ∀ line ∈ lines, Whole line)
    (some : lines ≠ []) : joinLines lines ≠ [] := by
  intro empty
  have read := lines_joinLines whole
  rw [empty] at read
  exact some read.symm

end ShaderPipeline.Text
