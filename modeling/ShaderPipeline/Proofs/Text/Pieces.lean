import ShaderPipeline.Text.Word

/-! Pieces of a text. A run of word characters ends where a mark stands, so what stands before a
mark and what stands behind it have their words apart. -/

namespace ShaderPipeline.Text

theorem pieces_cons_mark {c : Char} (mark : isWordChar c = false) (rest : Text) :
    pieces (c :: rest) = .mark c :: pieces rest := by
  simp [pieces, mark]

theorem pieces_append_mark {c : Char} (mark : isWordChar c = false) (first second : Text) :
    pieces (first ++ c :: second) = pieces first ++ .mark c :: pieces second := by
  induction first with
  | nil => exact pieces_cons_mark mark second
  | cons d rest ih =>
    by_cases inWord : isWordChar d = true
    · simp only [List.cons_append, pieces, inWord, ↓reduceIte, ih]
      rcases pieces rest with _ | ⟨first | other, others⟩ <;> rfl
    · rw [List.cons_append, pieces_cons_mark (by simpa using inWord),
        pieces_cons_mark (by simpa using inWord), ih, List.cons_append]

theorem identifiers_cons_mark {c : Char} (mark : isWordChar c = false) (rest : Text) :
    identifiers (c :: rest) = identifiers rest := by
  rw [identifiers, pieces_cons_mark mark]
  rfl

/-- Texts that do not meet inside a run keep their words apart. -/
theorem identifiers_append {second : Text} (apart : ∀ c ∈ second.head?, isWordChar c = false)
    (first : Text) : identifiers (first ++ second) = identifiers first ++ identifiers second := by
  cases second with
  | nil => simp [identifiers, pieces]
  | cons c rest =>
    have mark := apart c rfl
    rw [identifiers_cons_mark mark, identifiers, pieces_append_mark mark, List.filterMap_append]
    rfl

/-- The one piece of a text of word characters is the text. -/
theorem pieces_of_run {text : Text} (filled : text ≠ [])
    (run : ∀ c ∈ text, isWordChar c = true) : pieces text = [.run text] := by
  induction text with
  | nil => exact absurd rfl filled
  | cons c rest ih =>
    obtain ⟨first, others⟩ := List.forall_mem_cons.mp run
    by_cases last : rest = []
    · simp [last, pieces, first]
    · simp [pieces, first, ih last others]

theorem identifiers_of_run {text : Text} (filled : text ≠ [])
    (run : ∀ c ∈ text, isWordChar c = true) :
    identifiers text = (Piece.run text).word?.toList := by
  rw [identifiers, pieces_of_run filled run]
  cases word : (Piece.run text).word? <;> simp [word]

theorem mem_words_cons {piece : Piece} {rest : List Piece} {word : Text} :
    word ∈ (piece :: rest).filterMap Piece.word? ↔
      piece.word? = some word ∨ word ∈ rest.filterMap Piece.word? := by
  simp [List.mem_filterMap]

/-- Runs of word characters, each with a mark behind it or at the end. -/
def Separated : List Piece → Prop
  | [] => True
  | .mark c :: rest => isWordChar c = false ∧ Separated rest
  | .run text :: rest =>
    (text ≠ [] ∧ ∀ c ∈ text, isWordChar c = true) ∧
      (∀ next ∈ rest.head?, ∃ c, next = .mark c) ∧ Separated rest

theorem separated_pieces (text : Text) : Separated (pieces text) := by
  induction text with
  | nil => trivial
  | cons c rest ih =>
    by_cases inWord : isWordChar c = true
    · simp only [pieces, inWord, ↓reduceIte]
      cases after : pieces rest with
      | nil => simp [Separated, inWord]
      | cons next others =>
        rw [after] at ih
        cases next with
        | run text =>
          obtain ⟨⟨_, run⟩, follows⟩ := ih
          exact ⟨⟨by simp, List.forall_mem_cons.mpr ⟨inWord, run⟩⟩, follows⟩
        | mark d => exact ⟨⟨by simp, by simpa using inWord⟩, by simp, ih⟩
    · have mark : isWordChar c = false := by simpa using inWord
      rw [pieces_cons_mark mark]
      exact ⟨mark, ih⟩

end ShaderPipeline.Text
