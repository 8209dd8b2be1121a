import ShaderPipeline.Proofs.Text.Words

/-! Words that are spread over a line with any blanks between them. They are what is read of the
line, and the line can be cut at a word of one mark. -/

namespace ShaderPipeline.Text

/-- The words in order, with at least one blank between two of them and any blanks around them. -/
inductive Spread : (words : List Text) → (line : Text) → Prop
  | none {gap : Text} (blank : ∀ c ∈ gap, isBlank c = true) : Spread [] gap
  | word {gap word rest : Text} {words : List Text} (blank : ∀ c ∈ gap, isBlank c = true)
      (proper : IsWord word) (apart : ∀ c ∈ rest.head?, isBlank c = true)
      (others : Spread words rest) : Spread (word :: words) (gap ++ (word ++ rest))

private theorem isBlank_of_words_eq_nil {text : Text} (none : words text = []) :
    ∀ c ∈ text, isBlank c = true := by
  induction text with
  | nil => exact fun c absent => nomatch absent
  | cons c rest ih =>
    cases blank : isBlank c with
    | true =>
      rw [words_cons_blank blank] at none
      exact List.forall_mem_cons.mpr ⟨blank, ih none⟩
    | false => simp [words, leadingWord, blank] at none

theorem trim_of_words_eq_nil {text : Text} (none : words text = []) : trim text = [] := by
  have ends : ∀ c ∈ ([] : Text).head?, isBlank c = false := fun c absent => (nomatch absent)
  simpa using trim_eq_of_blank_ends (isBlank_of_words_eq_nil none) ends ends (List.forall_mem_nil _)

private theorem spread_words (text : Text) : Spread (words text) text := by
  induction split : words text generalizing text with
  | nil => exact .none (isBlank_of_words_eq_nil split)
  | cons word others ih =>
    obtain ⟨gap, rest, rfl, blank, filled, solid, apart, more⟩ := words_eq_cons split
    exact .word blank ⟨filled, solid⟩ apart (ih rest more)

theorem spread_of_words {all : List Text} {line : Text} (read : words line = all) :
    Spread all line := read ▸ spread_words line

namespace Spread

variable {all : List Text} {line : Text} (spread : Spread all line)
include spread

theorem words_eq : words line = all := by
  induction spread with
  | @none gap blank =>
    have read := words_append_blank blank []
    rwa [List.append_nil] at read
  | word blank proper apart others ih =>
    rw [words_append_blank blank, words_append proper.filled proper.solid apart, ih]

theorem append_trail {trail : Text} (after : ∀ c ∈ trail, isBlank c = true) :
    Spread all (line ++ trail) := by
  induction spread with
  | none blank => exact .none (List.forall_mem_append.mpr ⟨blank, after⟩)
  | @word gap word rest words blank proper apart others ih =>
    have behind : ∀ c ∈ (rest ++ trail).head?, isBlank c = true := by
      cases rest with
      | nil => exact fun c first => after c (List.mem_of_head? first)
      | cons next more => exact apart
    rw [List.append_assoc, List.append_assoc]
    exact .word blank proper behind ih

/-- Every character of a line is a blank or stands in a word. -/
theorem isBlank_or_mem {c : Char} (member : c ∈ line) :
    isBlank c = true ∨ ∃ word ∈ all, c ∈ word := by
  induction spread with
  | none blank => exact .inl (blank c member)
  | @word gap word rest words blank proper apart others ih =>
    rcases List.mem_append.mp member with lead | member
    · exact .inl (blank c lead)
    · rcases List.mem_append.mp member with here | later
      · exact .inr ⟨word, List.mem_cons_self, here⟩
      · exact (ih later).imp_right fun ⟨other, present, inside⟩ =>
          ⟨other, List.mem_cons_of_mem word present, inside⟩

end Spread

theorem words_trim (text : Text) : words (trim text) = words text := by
  obtain ⟨lead, trail, whole, before, after, _⟩ := exists_trim text
  have longer := ((spread_words (trim text)).append_trail after).words_eq
  conv => rhs; rw [whole, words_append_blank before, longer]

/-- A trimmed text starts with its first word. -/
theorem exists_trim_eq_append {text word : Text} (first : (words text).head? = some word) :
    ∃ rest, trim text = word ++ rest ∧ word ≠ [] := by
  obtain ⟨others, split⟩ := List.head?_eq_some_iff.mp first
  obtain ⟨_, _, _, _, _, starts⟩ := exists_trim text
  rw [← words_trim] at split
  obtain ⟨gap, rest, whole, blank, filled, _⟩ := words_eq_cons split
  cases gap with
  | nil => exact ⟨rest, whole, filled⟩
  | cons c gap =>
    have solid := starts c (by rw [whole]; rfl)
    rw [blank c List.mem_cons_self] at solid
    cases solid

/-- A mark that is in no word is not in the text. -/
theorem notMem_of_words {mark : Char} (solid : isBlank mark = false) {text : Text}
    (absent : ∀ word ∈ words text, mark ∉ word) : mark ∉ text := by
  intro member
  rcases (spread_words text).isBlank_or_mem member with blank | ⟨word, present, inside⟩
  · rw [solid] at blank
    cases blank
  · exact absent word present inside

/-- A trimmed text starts with its first word. -/
theorem exists_after {line word : Text} {others : List Text}
    (split : words line = word :: others) :
    ∃ after, trim line = word ++ after ∧ (∀ c ∈ after.head?, isBlank c = true) ∧
      words after = others := by
  rw [← words_trim] at split
  obtain ⟨gap, rest, whole, blank, _, _, apart, more⟩ := words_eq_cons split
  obtain ⟨_, _, _, _, _, starts⟩ := exists_trim line
  cases gap with
  | nil => exact ⟨rest, whole, apart, more⟩
  | cons c others =>
    have solid := starts c (by rw [whole]; rfl)
    rw [blank c List.mem_cons_self] at solid
    cases solid

/-- A text is cut at the first of its words that is the mark alone. -/
theorem splitAt?_of_words {mark : Char} (solid : isBlank mark = false) {text : Text}
    {first second : List Text} (split : words text = first ++ [mark] :: second)
    (absent : ∀ word ∈ first, mark ∉ word) :
    ∃ before after, splitAt? mark text = some (before, after) ∧ words before = first ∧
      words after = second := by
  obtain ⟨start, tail, rfl, read, more, _⟩ := exists_cut split
  obtain ⟨gap, rest, rfl, blank, _, _, _, others⟩ := words_eq_cons more
  have before : words (start ++ gap) = first := by
    rw [((spread_words start).append_trail blank).words_eq, read]
  have outside : mark ∉ start ++ gap := notMem_of_words solid (by rwa [before])
  refine ⟨start ++ gap, rest, ?_, before, others⟩
  rw [← List.append_assoc, List.singleton_append, splitAt?_append_cons outside]

end ShaderPipeline.Text
