import ShaderPipeline.Proofs.Condition.Expression

/-! Tokens that are spelled with blanks between them are read back, and every operand that is read
could have been spelled. -/

namespace ShaderPipeline.Condition

private theorem isOperandChar_iff {c : Char} :
    isOperandChar c = true ↔
      Text.isBlank c = false ∧ ¬ (c = '(' ∨ c = ')') ∧ c ≠ '!' ∧ doubled? c = none := by
  have marks : doubled? c = none ↔ c ≠ '&' ∧ c ≠ '|' ∧ c ≠ '=' := by
    unfold doubled?
    split <;> simp_all
  rw [marks, isOperandChar]
  simp only [Bool.not_eq_true', Bool.or_eq_false_iff, List.contains_eq_mem,
    decide_eq_false_iff_not, List.mem_cons, List.not_mem_nil, or_false, not_or]
  grind

/-! ### What the first character of a condition tells -/

private theorem tokenize_blank {c : Char} (blank : Text.isBlank c = true) (rest : Text) :
    tokenize (c :: rest) = tokenize rest := by
  rw [tokenize.eq_def]
  exact if_pos blank

private theorem tokenize_doubled {c : Char} {operator : Operator}
    (mark : doubled? c = some operator) (rest : Text) :
    tokenize (c :: c :: rest) = (tokenize rest).map (.operator operator :: ·) := by
  have outside : Text.isBlank c = false ∧ ¬ (c = '(' ∨ c = ')') ∧ c ≠ '!' := by
    unfold doubled? at mark
    split at mark
    next => decide
    next => decide
    next => decide
    next => cases mark
  obtain ⟨solid, parenthesis, exclamation⟩ := outside
  rw [tokenize.eq_def]
  simp only [solid, Bool.false_eq_true, ↓reduceIte, parenthesis, exclamation, mark]

private theorem tokenize_not {rest : Text} (other : rest.head? ≠ some '=') :
    tokenize ('!' :: rest) = (tokenize rest).map (.operator .not :: ·) := by
  have solid : Text.isBlank '!' = false := by decide
  have parenthesis : ¬ ('!' = '(' ∨ '!' = ')') := by decide
  rw [tokenize.eq_def]
  simp only [solid, Bool.false_eq_true, ↓reduceIte, parenthesis]
  split
  next => exact absurd rfl other
  next => rfl

private theorem tokenize_notEqual (rest : Text) :
    tokenize ('!' :: '=' :: rest) = (tokenize rest).map (.operator .notEqual :: ·) := by
  have solid : Text.isBlank '!' = false := by decide
  have parenthesis : ¬ ('!' = '(' ∨ '!' = ')') := by decide
  rw [tokenize.eq_def]
  simp only [solid, Bool.false_eq_true, ↓reduceIte, parenthesis]

private theorem tokenize_word {c : Char} (inside : isOperandChar c = true) (rest : Text) :
    tokenize (c :: rest) =
      (tokenize (rest.dropWhile isOperandChar)).map
        (.operand (c :: rest.takeWhile isOperandChar) :: ·) := by
  obtain ⟨solid, parenthesis, exclamation, single⟩ := isOperandChar_iff.mp inside
  rw [tokenize.eq_def]
  simp only [solid, Bool.false_eq_true, ↓reduceIte, parenthesis, exclamation, single]

/-! ### Spelled tokens -/

/-- What can follow a spelled token: nothing, or a blank. -/
def Apart (rest : Text) : Prop := ∀ c ∈ rest.head?, Text.isBlank c = true

private theorem tokenize_gap {gap : Text} (blank : ∀ c ∈ gap, Text.isBlank c = true) (rest : Text) :
    tokenize (gap ++ rest) = tokenize rest := by
  induction gap with
  | nil => rfl
  | cons c more ih =>
    rw [List.cons_append, tokenize_blank (blank c List.mem_cons_self)]
    exact ih fun other member => blank other (List.mem_cons_of_mem c member)

private theorem tokenize_operator (operator : Operator) {rest : Text} (apart : Apart rest) :
    tokenize (operator.symbol.toList ++ rest) =
      (tokenize rest).map (.operator operator :: ·) := by
  cases operator with
  | not =>
    -- the blank keeps the `!` from being read as the start of `!=`
    have other : rest.head? ≠ some '=' := fun next =>
      absurd (apart '=' next) (by decide)
    exact tokenize_not other
  | equal => exact tokenize_doubled rfl rest
  | notEqual => exact tokenize_notEqual rest
  | and => exact tokenize_doubled rfl rest
  | or => exact tokenize_doubled rfl rest

namespace Token

/-- An operand of the token can be spelled. -/
def Plain : Token → Prop
  | .operand text => text ≠ [] ∧ ∀ c ∈ text, isOperandChar c = true
  | .operator _ => True

end Token

theorem tokenize_operand {text : Text} (plain : (Token.operand text).Plain) {rest : Text}
    (apart : Apart rest) :
    tokenize (text ++ rest) = (tokenize rest).map (.operand text :: ·) := by
  obtain ⟨inhabited, inside⟩ := plain
  obtain ⟨c, more, rfl⟩ := List.exists_cons_of_ne_nil inhabited
  have others : ∀ other ∈ more, isOperandChar other = true := fun other member =>
    inside other (List.mem_cons_of_mem c member)
  have ends : rest.takeWhile isOperandChar = [] ∧ rest.dropWhile isOperandChar = rest := by
    cases rest with
    | nil => exact ⟨rfl, rfl⟩
    | cons next tail =>
      have outside : isOperandChar next = false := by simp [isOperandChar, apart next rfl]
      simp [outside]
  rw [List.cons_append, tokenize_word (inside c List.mem_cons_self),
    List.takeWhile_append_of_pos others, List.dropWhile_append_of_pos others, ends.1, ends.2,
    List.append_nil]

private theorem tokenize_spelling {token : Token} (plain : token.Plain) {rest : Text}
    (apart : Apart rest) :
    tokenize (token.spelling ++ rest) = (tokenize rest).map (token :: ·) := by
  cases token with
  | operand text => exact tokenize_operand plain apart
  | operator sign => exact tokenize_operator sign apart

/-- Spaced tokens are read back. -/
theorem tokenize_spaced {tokens : List Token} {text : Text} (spaced : Spaced tokens text)
    (plain : ∀ token ∈ tokens, token.Plain) : tokenize text = .ok tokens := by
  induction spaced with
  | single token =>
    have own := plain token List.mem_cons_self
    have last : Apart [] := fun c absent => (nomatch absent)
    have read := tokenize_spelling own last
    rw [List.append_nil] at read
    rw [read, tokenize.eq_def]
    rfl
  | @cons token gap tokens text apart blank others ih =>
    have own := plain token List.mem_cons_self
    have separated : Apart (gap ++ text) := by
      obtain ⟨c, more, rfl⟩ := List.exists_cons_of_ne_nil apart
      intro first here
      obtain rfl : c = first := Option.some.inj here
      exact blank c List.mem_cons_self
    rw [List.append_assoc, tokenize_spelling own separated, tokenize_gap blank,
      ih fun other member => plain other (List.mem_cons_of_mem token member)]
    rfl

/-! ### Tokens of any text -/

/-- A plain token before what is read of the rest. -/
theorem plain_of_map_cons {rest : Except Error (List Token)} {first : Token} {tokens : List Token}
    (read : rest.map (first :: ·) = .ok tokens) (own : first.Plain)
    (others : ∀ {tokens}, rest = .ok tokens → ∀ token ∈ tokens, token.Plain) :
    ∀ token ∈ tokens, token.Plain := by
  cases rest with
  | error problem => cases read
  | ok more =>
    cases read
    intro token member
    rcases List.mem_cons.mp member with rfl | later
    · exact own
    · exact others rfl token later

/-- Whatever is read as an operand has characters, and only those of operands. -/
theorem plain_of_tokenize {text : Text} {tokens : List Token}
    (read : tokenize text = .ok tokens) : ∀ token ∈ tokens, token.Plain := by
  fun_induction tokenize text generalizing tokens with
  | case1 =>
    cases read
    exact fun _ absent => (nomatch absent)
  | case2 c rest blank ih => exact ih read
  | case3 => cases read
  | case4 rest _ _ ih => exact plain_of_map_cons read trivial ih
  | case5 rest _ _ _ ih => exact plain_of_map_cons read trivial ih
  | case6 => cases read
  | case7 operator second rest _ _ _ _ ih => exact plain_of_map_cons read trivial ih
  | case8 => cases read
  | case9 c rest solid parenthesis exclamation single ih =>
    have inside : isOperandChar c = true :=
      isOperandChar_iff.mpr ⟨by simpa using solid, parenthesis, exclamation, single⟩
    refine plain_of_map_cons read ⟨List.cons_ne_nil _ _, fun other member => ?_⟩ ih
    rcases List.mem_cons.mp member with rfl | later
    · exact inside
    · exact List.all_eq_true.mp List.all_takeWhile other later

end ShaderPipeline.Condition
