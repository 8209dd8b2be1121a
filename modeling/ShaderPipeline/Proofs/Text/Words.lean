import ShaderPipeline.Text.Word

/-! Texts cut between their words, at a mark, and at the blanks around them. -/

namespace ShaderPipeline.Text

theorem splitAt?_append_cons {mark : Char} {before : Text} (absent : mark ∉ before)
    (after : Text) : splitAt? mark (before ++ mark :: after) = some (before, after) := by
  induction before with
  | nil => simp [splitAt?]
  | cons c rest ih =>
    rw [List.mem_cons, not_or] at absent
    simp [splitAt?, Ne.symm absent.1, ih absent.2]

theorem splitAt?_eq_none_iff {mark : Char} {text : Text} :
    splitAt? mark text = none ↔ mark ∉ text := by
  induction text with
  | nil => simp [splitAt?]
  | cons c rest ih =>
    by_cases same : c = mark
    · simp [splitAt?, same]
    · simp [splitAt?, same, Ne.symm same, ih]

theorem splitBlank?_append_cons {before : Text} {c : Char} (solid : ∀ c ∈ before, isBlank c = false)
    (blank : isBlank c = true) (after : Text) :
    splitBlank? (before ++ c :: after) = some (before, after) := by
  induction before with
  | nil => simp [splitBlank?, blank]
  | cons first rest ih =>
    have letter := solid first List.mem_cons_self
    have others := ih fun other member => solid other (List.mem_cons_of_mem first member)
    simp [splitBlank?, letter, others]

theorem dropStart?_eq_some_iff {start text rest : Text} :
    dropStart? start text = some rest ↔ text = start ++ rest := by
  induction start generalizing text with
  | nil => simp [dropStart?]
  | cons expected others ih =>
    cases text with
    | nil => simp [dropStart?]
    | cons c tail =>
      by_cases same : c = expected
      · simp [dropStart?, same, ih]
      · simp [dropStart?, same]

/-! ### Words -/

theorem toNat_of_isWordChar {c : Char} (letter : isWordChar c = true) :
    (0x30 ≤ c.toNat ∧ c.toNat ≤ 0x39) ∨ (0x41 ≤ c.toNat ∧ c.toNat ≤ 0x5A) ∨
      c.toNat = 0x5F ∨ (0x61 ≤ c.toNat ∧ c.toNat ≤ 0x7A) := by
  have classes : (((c.isUpper || c.isLower) || c.isDigit) || c == '_') = true := letter
  simp only [Bool.or_eq_true, beq_iff_eq] at classes
  rcases classes with ((upper | lower) | digit) | rfl
  · exact .inr (.inl (of_decide_eq_true upper))
  · obtain ⟨least, most⟩ := Bool.and_eq_true_iff.mp lower
    exact .inr (.inr (.inr ⟨of_decide_eq_true least, of_decide_eq_true most⟩))
  · obtain ⟨least, most⟩ := Bool.and_eq_true_iff.mp digit
    exact .inl ⟨of_decide_eq_true least, of_decide_eq_true most⟩
  · decide

theorem isBlank_of_isWordChar {c : Char} (letter : isWordChar c = true) : isBlank c = false := by
  have codes := toNat_of_isWordChar letter
  simp only [isBlank, Bool.or_eq_false_iff, Bool.and_eq_false_iff, decide_eq_false_iff_not,
    beq_eq_false_iff_ne]
  omega

theorem words_append_blank {gap : Text} (blank : ∀ c ∈ gap, isBlank c = true) (rest : Text) :
    words (gap ++ rest) = words rest := by
  induction gap with
  | nil => rfl
  | cons c others ih =>
    rw [List.cons_append, words_cons_blank (blank c List.mem_cons_self)]
    exact ih fun other member => blank other (List.mem_cons_of_mem c member)

/-- A word is read up to the next blank. -/
theorem leadingWord_append {word rest : Text} (solid : ∀ c ∈ word, isBlank c = false)
    (apart : ∀ c ∈ rest.head?, isBlank c = true) :
    leadingWord (word ++ rest) = (word, words rest) := by
  induction word with
  | nil =>
    cases rest with
    | nil => rfl
    | cons c tail =>
      have blank := apart c rfl
      simp [leadingWord, words, blank]
  | cons c others ih =>
    have letter := solid c List.mem_cons_self
    simp [leadingWord, letter, ih fun other member => solid other (List.mem_cons_of_mem c member)]

theorem words_append {word rest : Text} (filled : word ≠ [])
    (solid : ∀ c ∈ word, isBlank c = false) (apart : ∀ c ∈ rest.head?, isBlank c = true) :
    words (word ++ rest) = word :: words rest := by
  simp [words, leadingWord_append solid apart, filled]

/-- The first word of a text stands behind blanks and ends before a blank. -/
theorem words_eq_cons {text word : Text} {others : List Text}
    (split : words text = word :: others) :
    ∃ gap rest, text = gap ++ (word ++ rest) ∧ (∀ c ∈ gap, isBlank c = true) ∧ word ≠ [] ∧
      (∀ c ∈ word, isBlank c = false) ∧ (∀ c ∈ rest.head?, isBlank c = true) ∧
      words rest = others := by
  induction text with
  | nil => cases split
  | cons c tail ih =>
    cases first : isBlank c with
    | true =>
      rw [words_cons_blank first] at split
      obtain ⟨gap, rest, same, blank, read⟩ := ih split
      refine ⟨c :: gap, rest, by rw [same, List.cons_append], ?_, read⟩
      simpa [first] using blank
    | false =>
      let letter (c : Char) : Bool := !isBlank c
      have whole := (@List.takeWhile_append_dropWhile _ letter (c :: tail)).symm
      have filled : (c :: tail).takeWhile letter ≠ [] := by simp [letter, first]
      have solid : ∀ part ∈ (c :: tail).takeWhile letter, isBlank part = false := by
        intro part member
        have all : ((c :: tail).takeWhile letter).all letter = true := List.all_takeWhile
        simpa [letter] using List.all_eq_true.mp all part member
      have apart : ∀ next ∈ ((c :: tail).dropWhile letter).head?, isBlank next = true := by
        intro next stands
        have stops := List.head?_dropWhile_not letter (c :: tail)
        rw [Option.mem_def.mp stands] at stops
        simpa [letter] using stops
      rw [whole, words_append filled solid apart] at split
      obtain ⟨rfl, rfl⟩ := List.cons.inj split
      exact ⟨[], _, whole, by simp, filled, solid, apart, rfl⟩

/-- A text can be cut before each of its words, right behind the word before it. -/
theorem exists_cut {text : Text} {first second : List Text}
    (split : words text = first ++ second) :
    ∃ start rest, text = start ++ rest ∧ words start = first ∧ words rest = second ∧
      (∀ c ∈ start.getLast?, isBlank c = false) ∧
      (start ≠ [] → ∀ c ∈ rest.head?, isBlank c = true) := by
  induction first generalizing text with
  | nil => exact ⟨[], text, rfl, rfl, split, by simp, by simp⟩
  | cons word others ih =>
    obtain ⟨gap, tail, rfl, blank, filled, solid, apart, more⟩ := words_eq_cons split
    obtain ⟨start, rest, rfl, first, second, ended, begun⟩ := ih more
    refine ⟨gap ++ (word ++ start), rest, by simp, ?_, second, ?_, ?_⟩
    · have startApart : ∀ c ∈ start.head?, isBlank c = true := by
        intro c stands
        exact apart c (by simp [Option.mem_def.mp stands])
      rw [words_append_blank blank, words_append filled solid startApart, first]
    · intro c last
      rw [List.getLast?_append, List.getLast?_append] at last
      cases ends : start.getLast? with
      | some other => exact ended c (by simpa [ends] using last)
      | none =>
        have inside := List.getLast?_eq_some_getLast filled
        rw [ends, inside] at last
        obtain rfl : word.getLast filled = c := by simpa using last
        exact solid _ (List.getLast_mem filled)
    · intro _
      by_cases empty : start = []
      · simpa [empty] using apart
      · exact begun empty

/-- A word is filled and has no blanks. -/
structure IsWord (word : Text) : Prop where
  filled : word ≠ []
  solid : ∀ c ∈ word, isBlank c = false

/-- A form that can be tested. An instance for `∀ c ∈ word` may be one that runs through all
characters. -/
theorem isWord_iff {word : Text} :
    IsWord word ↔ word ≠ [] ∧ word.all (fun c => !isBlank c) = true := by
  constructor
  · intro proper
    exact ⟨proper.filled, by simpa using proper.solid⟩
  · rintro ⟨filled, solid⟩
    exact ⟨filled, by simpa using solid⟩

instance (word : Text) : Decidable (IsWord word) := decidable_of_iff _ isWord_iff.symm

theorem isBlank_of_mem_spaces (count : Nat) : ∀ c ∈ List.replicate count ' ', isBlank c = true := by
  intro c member
  obtain rfl := List.eq_of_mem_replicate member
  rfl

theorem joinWords_cons_cons (word next : Text) (rest : List Text) :
    joinWords (word :: next :: rest) = word ++ ' ' :: joinWords (next :: rest) := by
  rw [joinWords, List.intercalate_cons_of_ne_nil (by simp)]
  simp [joinWords]

/-- Words that stand apart by single spaces are read back. -/
theorem words_joinWords {all : List Text} (proper : ∀ word ∈ all, IsWord word) :
    words (joinWords all) = all := by
  induction all with
  | nil => rfl
  | cons word rest ih =>
    obtain ⟨filled, solid⟩ := proper word List.mem_cons_self
    have others := ih fun other member => proper other (List.mem_cons_of_mem word member)
    cases rest with
    | nil =>
      have none : ∀ c ∈ ([] : Text).head?, isBlank c = true := fun _ absent => (nomatch absent)
      simpa [joinWords] using words_append filled solid none
    | cons next rest =>
      have space : ∀ c ∈ (' ' :: joinWords (next :: rest)).head?, isBlank c = true := by simp; rfl
      rw [joinWords_cons_cons, words_append filled solid space, words_cons_blank rfl, others]

private theorem head?_joinWords {word : Text} (filled : word ≠ []) (rest : List Text) :
    (joinWords (word :: rest)).head? = word.head? := by
  obtain ⟨c, others, rfl⟩ := List.exists_cons_of_ne_nil filled
  cases rest with
  | nil => simp [joinWords]
  | cons next rest => rw [joinWords_cons_cons]; rfl

/-- Words joined end in the last word. -/
theorem getLast?_joinWords (all : List Text) {last : Text} (filled : last ≠ []) :
    (joinWords (all ++ [last])).getLast? = last.getLast? := by
  induction all with
  | nil => simp [joinWords]
  | cons word rest ih =>
    obtain ⟨next, others, same⟩ := List.exists_cons_of_ne_nil (show rest ++ [last] ≠ [] by simp)
    rw [same] at ih
    have ended := List.getLast?_eq_some_getLast filled
    rw [ended] at ih
    rw [List.cons_append, same, joinWords_cons_cons, List.getLast?_append, List.getLast?_cons, ih,
      ended]
    rfl

theorem of_mem_joinWords {all : List Text} {c : Char} (member : c ∈ joinWords all) :
    c = ' ' ∨ ∃ word ∈ all, c ∈ word := by
  induction all with
  | nil => cases member
  | cons word rest ih =>
    cases rest with
    | nil => exact .inr ⟨word, List.mem_singleton_self word, by simpa [joinWords] using member⟩
    | cons next rest =>
      rw [joinWords_cons_cons] at member
      rcases List.mem_append.mp member with here | member
      · exact .inr ⟨word, List.mem_cons_self, here⟩
      · rcases List.mem_cons.mp member with rfl | later
        · exact .inl rfl
        · exact (ih later).imp_right fun ⟨other, present, inside⟩ =>
            ⟨other, List.mem_cons_of_mem word present, inside⟩

/-! ### Blanks at the ends -/

private theorem dropWhile_isBlank {text : Text} (apart : ∀ c ∈ text.head?, isBlank c = false) :
    text.dropWhile isBlank = text := by
  cases text with
  | nil => rfl
  | cons c rest =>
    have first := apart c rfl
    simp [first]

theorem isBlank_of_mem_takeWhile {text : Text} {c : Char} (member : c ∈ text.takeWhile isBlank) :
    isBlank c = true := by
  have all : (text.takeWhile isBlank).all isBlank = true := List.all_takeWhile
  exact List.all_eq_true.mp all c member

/-- A text has no more than blanks around what trimming leaves of it. -/
theorem exists_trim (text : Text) :
    ∃ lead trail, text = lead ++ (trim text ++ trail) ∧ (∀ c ∈ lead, isBlank c = true) ∧
      (∀ c ∈ trail, isBlank c = true) ∧ ∀ c ∈ (trim text).head?, isBlank c = false := by
  let trail := ((trimStart text).reverse.takeWhile isBlank).reverse
  have rest : trimStart text = trim text ++ trail := by
    rw [trim, trimEnd, ← List.reverse_append, List.takeWhile_append_dropWhile, List.reverse_reverse]
  refine ⟨text.takeWhile isBlank, trail, ?_, fun c => isBlank_of_mem_takeWhile, ?_, ?_⟩
  · rw [← rest, trimStart, List.takeWhile_append_dropWhile]
  · intro c member
    exact isBlank_of_mem_takeWhile (List.mem_reverse.mp member)
  · intro c first
    have stops := List.head?_dropWhile_not isBlank text
    have same : (text.dropWhile isBlank).head? = some c := by
      rw [← trimStart, rest, List.head?_append, Option.mem_def.mp first]
      rfl
    rwa [same] at stops

theorem trim_subset (text : Text) : trim text ⊆ text := by
  obtain ⟨lead, trail, whole, _⟩ := exists_trim text
  intro c member
  rw [whole]
  exact List.mem_append_right _ (List.mem_append_left _ member)

theorem trim_eq_of_blank_ends {lead text trail : Text} (before : ∀ c ∈ lead, isBlank c = true)
    (first : ∀ c ∈ text.head?, isBlank c = false) (last : ∀ c ∈ text.getLast?, isBlank c = false)
    (after : ∀ c ∈ trail, isBlank c = true) : trim (lead ++ (text ++ trail)) = text := by
  rw [trim, trimStart, List.dropWhile_append_of_pos before]
  by_cases empty : text = []
  · have blank : (trail ++ []).dropWhile isBlank = [] := List.dropWhile_append_of_pos after
    rw [List.append_nil] at blank
    rw [empty, List.nil_append, blank]
    rfl
  · have starts : ∀ c ∈ (text ++ trail).head?, isBlank c = false := by
      obtain ⟨c, rest, rfl⟩ := List.exists_cons_of_ne_nil empty
      exact first
    have ends : ∀ c ∈ text.reverse.head?, isBlank c = false := by
      rw [List.head?_reverse]
      exact last
    rw [dropWhile_isBlank starts, trimEnd, List.reverse_append,
      List.dropWhile_append_of_pos (by simpa using after), dropWhile_isBlank ends,
      List.reverse_reverse]

theorem trim_eq_self {text : Text} (first : ∀ c ∈ text.head?, isBlank c = false)
    (last : ∀ c ∈ text.getLast?, isBlank c = false) : trim text = text := by
  have none := isBlank_of_mem_spaces 0
  simpa using trim_eq_of_blank_ends none first last none

theorem trimEnd_eq_self {text : Text} (last : ∀ c ∈ text.getLast?, isBlank c = false) :
    trimEnd text = text := by
  have ends : ∀ c ∈ text.reverse.head?, isBlank c = false := by
    rw [List.head?_reverse]
    exact last
  rw [trimEnd, dropWhile_isBlank ends, List.reverse_reverse]

/-- Words that stand apart by single spaces are trimmed from blanks before them. -/
theorem trim_joinWords {all : List Text} (proper : ∀ word ∈ all, IsWord word) {gap : Text}
    (blank : ∀ c ∈ gap, isBlank c = true) : trim (gap ++ joinWords all) = joinWords all := by
  have first : ∀ c ∈ (joinWords all).head?, isBlank c = false := by
    cases all with
    | nil => exact fun _ absent => (nomatch absent)
    | cons word rest =>
      obtain ⟨filled, solid⟩ := proper word List.mem_cons_self
      rw [head?_joinWords filled]
      exact fun c starts => solid c (List.mem_of_head? starts)
  have last : ∀ c ∈ (joinWords all).getLast?, isBlank c = false := by
    rcases List.eq_nil_or_concat all with rfl | ⟨before, word, rfl⟩
    · exact fun _ absent => (nomatch absent)
    · rw [List.concat_eq_append] at proper ⊢
      obtain ⟨filled, solid⟩ := proper word (by simp)
      rw [getLast?_joinWords before filled]
      exact fun c ends => solid c (List.mem_of_getLast? ends)
  simpa using trim_eq_of_blank_ends blank first last (isBlank_of_mem_spaces 0)

end ShaderPipeline.Text
