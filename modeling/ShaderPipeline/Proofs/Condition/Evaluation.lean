import ShaderPipeline.Proofs.Condition.Precedence

/-! Evaluation gives every spaced expression its value. -/

namespace ShaderPipeline.Condition

/-! ### The tokens of expressions -/

/-- Tokens with operands that can be spelled, at least one of them. -/
structure Spellable (tokens : List Token) : Prop where
  inhabited : tokens ≠ []
  plain : ∀ token ∈ tokens, token.Plain

namespace Spellable

variable {tokens : List Token}

theorem join {right : List Token} (left : Spellable tokens) (operator : Operator)
    (more : Spellable right) : Spellable (tokens ++ .operator operator :: right) := by
  constructor
  · simp
  · intro token member
    rcases List.mem_append.mp member with here | member
    · exact left.plain token here
    · rcases List.mem_cons.mp member with rfl | later
      · trivial
      · exact more.plain token later

theorem chain {items : List α} {operator : α → Operator} {part : α → List Token}
    (first : Spellable tokens) (others : ∀ item ∈ items, Spellable (part item)) :
    Spellable (tokens ++ items.flatMap fun item => .operator (operator item) :: part item) := by
  induction items generalizing tokens with
  | nil => simpa using first
  | cons item more ih =>
    have joined := first.join (operator item) (others item List.mem_cons_self)
    have rest := ih joined fun other member => others other (List.mem_cons_of_mem item member)
    simpa using rest

end Spellable

theorem Unary.spellable (unary : Unary) : Spellable unary.tokens := by
  induction unary with
  | operand word =>
    refine ⟨List.cons_ne_nil _ _, fun token member => ?_⟩
    obtain rfl := List.mem_singleton.mp member
    exact ⟨word.inhabited, word.plain⟩
  | not inner ih =>
    refine ⟨List.cons_ne_nil _ _, fun token member => ?_⟩
    rcases List.mem_cons.mp member with rfl | later
    · trivial
    · exact ih.plain token later

theorem Equality.spellable (equality : Equality) : Spellable equality.tokens :=
  equality.first.spellable.chain fun item _ => item.2.spellable

theorem Conjunction.spellable (conjunction : Conjunction) : Spellable conjunction.tokens :=
  conjunction.first.spellable.chain fun right _ => right.spellable

theorem Expression.spellable (expression : Expression) : Spellable expression.tokens :=
  expression.first.spellable.chain fun right _ => right.spellable

/-! ### Values -/

variable {table : MacroTable}

/-- Tokens in a row are run in reverse Polish order. -/
theorem evaluate_of_tokens {text : Text} {tokens : List Token}
    (read : tokenize text = .ok tokens) :
    evaluate table text =
      if tokens = [] then .error .empty
      else match run table [] (reversePolish tokens) with
        | .ok values => outcome table values
        | .error problem => .error problem := by
  rw [evaluate, read]
  cases tokens with
  | nil => rfl
  | cons first rest =>
    show (run table [] (reversePolish (first :: rest)) >>= outcome table) = _
    rw [if_neg (List.cons_ne_nil first rest)]
    cases run table [] (reversePolish (first :: rest)) <;> rfl

/-- An expression's tokens come to its value, and nothing is left over. -/
theorem evaluate_tokens {text : Text} {expression : Expression}
    (read : tokenize text = .ok expression.tokens) :
    evaluate table text = .ok (expression.holds table) := by
  have alone : run table [] (reversePolish expression.tokens) =
      .ok [expression.value table] := by
    have idle : Waits Operator.or.precedence [] := fun top absent => (nomatch absent)
    have comes : ComesTo table _ _ _ := expression.comesTo
    have whole := comes [] [] [] idle .nothing
    rwa [List.append_nil] at whole
  rw [evaluate_of_tokens read, if_neg expression.spellable.inhabited, alone]
  rfl

/-- An operand of one letter. -/
def letter (c : Char) (inside : isOperandChar c = true) : Operand :=
  ⟨[c], List.cons_ne_nil c [], by simpa using inside⟩

/-- `! A == 0 && b != c == ! d || e` -/
def mixed : Expression :=
  ⟨⟨⟨.not (.operand (letter 'A' rfl)), [(.equal, .operand (letter '0' rfl))]⟩,
    [⟨.operand (letter 'b' rfl),
      [(.notEqual, .operand (letter 'c' rfl)), (.equal, .not (.operand (letter 'd' rfl)))]⟩]⟩,
    [⟨⟨.operand (letter 'e' rfl), []⟩, []⟩]⟩

end ShaderPipeline.Condition
