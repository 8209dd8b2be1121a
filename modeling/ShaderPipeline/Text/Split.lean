import ShaderPipeline.Text.Blank

/-! Splitting a text at a character, at its first blank, or after a fixed start. -/

namespace ShaderPipeline.Text

/-- The text before the first `mark`, and the text after it. -/
def splitAt? (mark : Char) : Text → Option (Text × Text)
  | [] => none
  | c :: rest =>
    if c = mark then some ([], rest)
    else (splitAt? mark rest).map fun (before, after) => (c :: before, after)

theorem splitAt?_eq_some {mark : Char} {text before after : Text}
    (found : splitAt? mark text = some (before, after)) :
    text = before ++ mark :: after ∧ mark ∉ before := by
  induction text generalizing before with
  | nil => simp [splitAt?] at found
  | cons c rest ih =>
    by_cases same : c = mark
    · simp only [splitAt?, same, ↓reduceIte, Option.some.injEq, Prod.mk.injEq] at found
      obtain ⟨rfl, rfl⟩ := found
      simp [same]
    · simp only [splitAt?, same, ↓reduceIte, Option.map_eq_some_iff] at found
      obtain ⟨⟨inner, tail⟩, split, equal⟩ := found
      obtain ⟨rfl, rfl⟩ := Prod.mk.inj equal
      obtain ⟨whole, absent⟩ := ih split
      exact ⟨by simp [whole], by simp [Ne.symm same, absent]⟩

/-- The text after a leading `start`. -/
def dropStart? : (start : Text) → Text → Option Text
  | [], text => some text
  | _ :: _, [] => none
  | expected :: start, c :: rest => if c = expected then dropStart? start rest else none

/-- The text before the first blank and the text after it. -/
def splitBlank? : Text → Option (Text × Text)
  | [] => none
  | c :: rest =>
    if isBlank c then some ([], rest)
    else (splitBlank? rest).map fun (before, after) => (c :: before, after)

/-- The pieces between the marks; the last one is what follows the last mark. -/
def splitEvery (mark : Char) : Text → List Text
  | [] => [[]]
  | c :: rest =>
    if c = mark then [] :: splitEvery mark rest
    else match splitEvery mark rest with
      | [] => [[c]]
      | first :: others => (c :: first) :: others

theorem splitEvery_ne_nil (mark : Char) (text : Text) : splitEvery mark text ≠ [] := by
  cases text with
  | nil => simp [splitEvery]
  | cons c rest =>
    simp only [splitEvery]
    split
    · simp
    · split <;> simp

theorem intercalate_splitEvery (mark : Char) (text : Text) :
    List.intercalate [mark] (splitEvery mark text) = text := by
  induction text with
  | nil => rfl
  | cons c rest ih =>
    cases tail : splitEvery mark rest with
    | nil => exact absurd tail (splitEvery_ne_nil mark rest)
    | cons first others =>
      rw [tail] at ih
      by_cases same : c = mark
      · simp [splitEvery, same, tail, List.intercalate] at ih ⊢
        exact ih
      · cases others <;> simp_all [splitEvery, List.intercalate]

end ShaderPipeline.Text
