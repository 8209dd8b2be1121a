import ShaderPipeline.Proofs.Condition.Evaluation
import ShaderPipeline.Proofs.Conditional.Results

/-! Which texts have a value as conditions. Reverse Polish order forgets where an operator stood, so
only the numbers of operands and operators tell on a text that is no expression. They tell enough
where no operand stands right before another operand or a `!`. -/

namespace ShaderPipeline.Condition

/-- The text reads as the tokens of an expression. -/
def IsExpression (text : Text) : Prop :=
  ∃ expression : Expression, tokenize text = .ok expression.tokens

namespace Token

def isOperand : Token → Bool
  | .operand _ => true
  | .operator _ => false

/-- The token stands between two values. -/
def isBinary : Token → Bool
  | .operand _ => false
  | .operator .not => false
  | .operator _ => true

private theorem isBinary_operator {operator : Operator} (between : operator ≠ .not) :
    (Token.operator operator).isBinary = true := by
  cases operator with
  | not => exact absurd rfl between
  | equal | notEqual | and | or => rfl

end Token

/-- An operand stands right before another operand or a `!`. -/
inductive Juxtaposed : List Token → Prop
  | here (text : Text) {second : Token} (apart : second.isBinary = false) (rest : List Token) :
      Juxtaposed (.operand text :: second :: rest)
  | later (first : Token) {rest : List Token} (inside : Juxtaposed rest) :
      Juxtaposed (first :: rest)

/-- The text reads as tokens with an operand right before another operand or a `!`. -/
def Juxtaposes (text : Text) : Prop := ∃ tokens, tokenize text = .ok tokens ∧ Juxtaposed tokens

/-! ### Sentences -/

/-- Operands, each after any number of `!`, with one operator between any two of them. -/
inductive Sentence : List Token → Prop
  | operand (text : Text) : Sentence [.operand text]
  | not {rest : List Token} (inner : Sentence rest) : Sentence (.operator .not :: rest)
  | binary (text : Text) {operator : Operator} (between : operator ≠ .not) {rest : List Token}
      (right : Sentence rest) : Sentence (.operand text :: .operator operator :: rest)

namespace Sentence

variable {tokens : List Token}

theorem join {right : List Token} (left : Sentence tokens) {operator : Operator}
    (between : operator ≠ .not) (more : Sentence right) :
    Sentence (tokens ++ .operator operator :: right) := by
  induction left with
  | operand text => exact .binary text between more
  | not inner ih => exact .not ih
  | binary text own rest ih => exact .binary text own ih

theorem chain {items : List α} {operator : α → Operator} {part : α → List Token}
    (first : Sentence tokens)
    (others : ∀ item ∈ items, operator item ≠ .not ∧ Sentence (part item)) :
    Sentence (tokens ++ items.flatMap fun item => .operator (operator item) :: part item) := by
  induction items generalizing tokens with
  | nil => simpa using first
  | cons item more ih =>
    obtain ⟨between, right⟩ := others item List.mem_cons_self
    have joined := first.join between right
    have rest := ih joined fun other member => others other (List.mem_cons_of_mem item member)
    simpa using rest

theorem not_juxtaposed (sentence : Sentence tokens) : ¬ Juxtaposed tokens := by
  induction sentence with
  | operand text =>
    intro apart
    cases apart with
    | later first inside => cases inside
  | not inner ih =>
    intro apart
    cases apart with
    | later first inside => exact ih inside
  | @binary text operator between rest right ih =>
    intro apart
    cases apart with
    | here text alone rest =>
      rw [Token.isBinary_operator between] at alone
      cases alone
    | later first inside =>
      cases inside with
      | later first inside => exact ih inside

end Sentence

theorem Unary.sentence (unary : Unary) : Sentence unary.tokens := by
  induction unary with
  | operand word => exact .operand word.text
  | not inner ih => exact .not ih

theorem Equality.sentence (equality : Equality) : Sentence equality.tokens :=
  equality.first.sentence.chain fun item _ => ⟨item.1.binary, item.2.sentence⟩

theorem Conjunction.sentence (conjunction : Conjunction) : Sentence conjunction.tokens :=
  conjunction.first.sentence.chain fun right _ => ⟨by decide, right.sentence⟩

theorem Expression.sentence (expression : Expression) : Sentence expression.tokens :=
  expression.first.sentence.chain fun right _ => ⟨by decide, right.sentence⟩

/-! ### Sentences as expressions -/

namespace Operand

/-- The expression of one operand. -/
def unary (word : Operand) : Unary := .operand word

def equality (word : Operand) : Equality := ⟨word.unary, []⟩

def conjunction (word : Operand) : Conjunction := ⟨word.equality, []⟩

end Operand

namespace Expression

/-- The expression with a `!` before its first operand. -/
def negateFirst (expression : Expression) : Expression :=
  let conjunction := expression.first
  let equality := conjunction.first
  ⟨⟨⟨.not equality.first, equality.others⟩, conjunction.others⟩, expression.others⟩

/-- The expression with an operand and an operator before it. The operator decides how much of the
expression stands on its right. -/
def prepend (word : Operand) (operator : Operator) (expression : Expression) : Expression :=
  let conjunction := expression.first
  let equality := conjunction.first
  match operator with
  | .equal =>
    ⟨⟨⟨word.unary, (.equal, equality.first) :: equality.others⟩, conjunction.others⟩,
      expression.others⟩
  | .notEqual =>
    ⟨⟨⟨word.unary, (.notEqual, equality.first) :: equality.others⟩, conjunction.others⟩,
      expression.others⟩
  | .and => ⟨⟨word.equality, equality :: conjunction.others⟩, expression.others⟩
  | .or | .not => ⟨word.conjunction, conjunction :: expression.others⟩

private theorem tokens_prepend (word : Operand) {operator : Operator} (between : operator ≠ .not)
    (expression : Expression) :
    (prepend word operator expression).tokens =
      .operand word.text :: .operator operator :: expression.tokens := by
  cases operator with
  | not => exact absurd rfl between
  | equal | notEqual | and | or =>
    simp [prepend, tokens, Conjunction.tokens, Equality.tokens, Unary.tokens, Operand.unary,
      Operand.equality, Operand.conjunction, Comparison.operator]

end Expression

/-- Every sentence of operands that can be spelled is an expression. -/
theorem Sentence.expression {tokens : List Token} (sentence : Sentence tokens)
    (plain : ∀ token ∈ tokens, token.Plain) :
    ∃ expression : Expression, expression.tokens = tokens := by
  induction sentence with
  | operand text =>
    obtain ⟨inhabited, inside⟩ := plain _ List.mem_cons_self
    exact ⟨⟨Operand.conjunction ⟨text, inhabited, inside⟩, []⟩, rfl⟩
  | not inner ih =>
    obtain ⟨expression, rfl⟩ := ih fun token member => plain token (List.mem_cons_of_mem _ member)
    exact ⟨expression.negateFirst, rfl⟩
  | binary text between right ih =>
    obtain ⟨inhabited, inside⟩ := plain _ List.mem_cons_self
    obtain ⟨expression, rfl⟩ := ih fun token member =>
      plain token (List.mem_cons_of_mem _ (List.mem_cons_of_mem _ member))
    exact ⟨expression.prepend ⟨text, inhabited, inside⟩ _,
      Expression.tokens_prepend _ between expression⟩

/-! ### Numbers of operands and operators -/

section Counts

variable {rest : List Token}

private theorem countP_operand (text : Text) :
    (Token.operand text :: rest).countP Token.isOperand = rest.countP Token.isOperand + 1 ∧
      (Token.operand text :: rest).countP Token.isBinary = rest.countP Token.isBinary :=
  ⟨List.countP_cons_of_pos rfl, List.countP_cons_of_neg Bool.false_ne_true⟩

private theorem countP_not :
    (Token.operator .not :: rest).countP Token.isOperand = rest.countP Token.isOperand ∧
      (Token.operator .not :: rest).countP Token.isBinary = rest.countP Token.isBinary :=
  ⟨List.countP_cons_of_neg Bool.false_ne_true, List.countP_cons_of_neg Bool.false_ne_true⟩

private theorem countP_binary {operator : Operator} (between : operator ≠ .not) :
    (Token.operator operator :: rest).countP Token.isOperand = rest.countP Token.isOperand ∧
      (Token.operator operator :: rest).countP Token.isBinary =
        rest.countP Token.isBinary + 1 :=
  ⟨List.countP_cons_of_neg Bool.false_ne_true,
    List.countP_cons_of_pos (Token.isBinary_operator between)⟩

end Counts

/-- Without juxtaposition every operand but the last has an operator after it. So the operands are
at most one more than the operators, and one more in sentences only. -/
theorem sentence_of_counts {tokens : List Token} (apart : ¬ Juxtaposed tokens) :
    tokens.countP Token.isOperand ≤ tokens.countP Token.isBinary + 1 ∧
      (tokens.countP Token.isOperand = tokens.countP Token.isBinary + 1 → Sentence tokens) := by
  match tokens with
  | [] => simp
  | .operator operator :: rest =>
    obtain ⟨bound, sentence⟩ := sentence_of_counts fun inside => apart (.later _ inside)
    by_cases unary : operator = .not
    · subst unary
      rw [countP_not.1, countP_not.2]
      exact ⟨bound, fun same => .not (sentence same)⟩
    · rw [(countP_binary unary).1, (countP_binary unary).2]
      exact ⟨by omega, by omega⟩
  | [.operand text] => exact ⟨by simp [Token.isOperand], fun _ => .operand text⟩
  | .operand text :: .operand second :: rest => exact absurd (.here text rfl rest) apart
  | .operand text :: .operator operator :: rest =>
    obtain ⟨bound, sentence⟩ := sentence_of_counts fun inside =>
      apart (.later _ (.later _ inside))
    by_cases unary : operator = .not
    · subst unary
      exact absurd (.here text rfl rest) apart
    · rw [(countP_operand text).1, (countP_operand text).2, (countP_binary unary).1,
        (countP_binary unary).2]
      refine ⟨by omega, fun same => ?_⟩
      have equal : rest.countP Token.isOperand = rest.countP Token.isBinary + 1 := by omega
      exact .binary text unary (sentence equal)

private theorem popTighter_append (operator : Operator) (stack : List Operator) :
    (popTighter operator stack).1 ++ (popTighter operator stack).2 = stack := by
  induction stack with
  | nil => rfl
  | cons top below ih =>
    rw [popTighter]
    split
    · rfl
    · exact congrArg (top :: ·) ih

/-- Reverse Polish order keeps every token. -/
theorem reorder_perm (stack : List Operator) (tokens : List Token) :
    (reorder stack tokens).Perm (stack.map .operator ++ tokens) := by
  induction tokens generalizing stack with
  | nil => simp [reorder]
  | cons first rest ih =>
    cases first with
    | operand text =>
      have inner := (ih stack).cons (.operand text)
      exact inner.trans List.perm_middle.symm
    | operator operator =>
      by_cases unary : operator = .not
      · subst unary
        have inner := ih (.not :: stack)
        exact inner.trans List.perm_middle.symm
      · have inner := ih (operator :: (popTighter operator stack).2)
        have whole := congrArg (List.map Token.operator) (popTighter_append operator stack)
        rw [List.map_append] at whole
        rw [reorder_binary unary, ← whole, List.append_assoc]
        exact (inner.trans List.perm_middle.symm).append_left _

/-- A run leaves as many values as operands are more than operators between them. -/
theorem length_of_run {table : MacroTable} {values finish : List Value} {tokens : List Token}
    (done : run table values tokens = .ok finish) :
    finish.length + tokens.countP Token.isBinary =
      values.length + tokens.countP Token.isOperand := by
  induction tokens generalizing values with
  | nil =>
    cases done
    rfl
  | cons first rest ih =>
    cases first with
    | operand text =>
      have inner := ih done
      rw [List.length_cons] at inner
      rw [(countP_operand text).1, (countP_operand text).2]
      omega
    | operator operator =>
      by_cases unary : operator = .not
      · subst unary
        rw [countP_not.1, countP_not.2]
        cases values with
        | nil => cases done
        | cons value values =>
          have inner := @ih (.truth (!value.holds table) :: values) done
          exact inner
      · rw [(countP_binary unary).1, (countP_binary unary).2]
        match values with
        | right :: left :: values =>
          rw [run_binary unary] at done
          have inner := ih done
          simp only [List.length_cons] at *
          omega
        | [_] | [] =>
          cases operator with
          | not => exact absurd rfl unary
          | equal | notEqual | and | or => cases done

/-- An accepted text has one operand more than it has operators between operands. -/
theorem counts_of_accepted {table : MacroTable} {text : Text} {tokens : List Token} {truth : Bool}
    (read : tokenize text = .ok tokens) (accepted : evaluate table text = .ok truth) :
    tokens.countP Token.isOperand = tokens.countP Token.isBinary + 1 := by
  rw [evaluate_of_tokens read] at accepted
  split at accepted
  next => cases accepted
  next =>
    cases ran : run table [] (reversePolish tokens) with
    | error problem => rw [ran] at accepted; cases accepted
    | ok values =>
      rw [ran] at accepted
      have height := length_of_run ran
      have kept := reorder_perm [] tokens
      rw [List.map_nil, List.nil_append] at kept
      rw [reversePolish, kept.countP_eq, kept.countP_eq, List.length_nil] at height
      match values with
      | [] => cases accepted
      | [value] =>
        rw [List.length_singleton] at height
        omega
      | top :: below :: more => cases accepted

/-! ### Accepted texts -/

/-- A text is an expression exactly where it has a value and no operand stands right before another
operand or a `!`. -/
theorem isExpression_iff (table : MacroTable) (text : Text) :
    IsExpression text ↔
      (∃ truth, evaluate table text = .ok truth) ∧ ¬ Juxtaposes text := by
  constructor
  · rintro ⟨expression, read⟩
    refine ⟨⟨expression.holds table, evaluate_tokens read⟩, ?_⟩
    rintro ⟨tokens, other, apart⟩
    rw [read] at other
    cases other
    exact expression.sentence.not_juxtaposed apart
  · rintro ⟨⟨truth, accepted⟩, joined⟩
    cases read : tokenize text with
    | error problem =>
      rw [evaluate, read] at accepted
      cases accepted
    | ok tokens =>
      have apart : ¬ Juxtaposed tokens := fun inside => joined ⟨tokens, read, inside⟩
      have sentence := (sentence_of_counts apart).2 (counts_of_accepted read accepted)
      obtain ⟨expression, rfl⟩ := sentence.expression (plain_of_tokenize read)
      exact ⟨expression, read⟩

/-- A condition without a value closes what `#if` and `#elif` open. -/
theorem closes_of_error {table : MacroTable} {text : Text} {problem : Error}
    (failed : evaluate table text = .error problem) (place : Conditional.Place)
    (line argument : Text) {state : Conditional.State} (macros : state.macros = table)
    (expanded : Macro.expand table .nonEmpty argument = text) :
    (Conditional.Pass.directive place line "if" argument).result state =
        (.ok [], { state with gates := false :: state.gates }) ∧
      (Conditional.Pass.directive place line "elif" argument).result state =
        (.ok [], { state with
          gates := (Conditional.Gates.alternative? false state.gates).getD state.gates }) := by
  subst macros
  subst expanded
  have dead : Conditional.holdsIn state.macros argument = false := by
    rw [Conditional.holdsIn, failed]
  constructor
  · have opened := Conditional.Pass.result_directive place argument state line "if"
    rw [dead, Bool.and_false] at opened
    exact opened
  · have turned := Conditional.Pass.result_directive place argument state line "elif"
    rw [dead] at turned
    exact turned

/-- A text is an expression exactly where it has a value and no operand stands right before another
operand or a `!`. Any other text without such a place has no value, and counts as false in `#if` and
`#elif`. -/
theorem accepted_iff_expression (table : MacroTable) (text : Text) :
    (IsExpression text ↔ (∃ truth, evaluate table text = .ok truth) ∧ ¬ Juxtaposes text) ∧
      (¬ IsExpression text → ¬ Juxtaposes text →
        (∃ problem, evaluate table text = .error problem) ∧
        ∀ (place : Conditional.Place) (line argument : Text) (state : Conditional.State),
          state.macros = table → Macro.expand table .nonEmpty argument = text →
          (Conditional.Pass.directive place line "if" argument).result state =
              (.ok [], { state with gates := false :: state.gates }) ∧
            (Conditional.Pass.directive place line "elif" argument).result state =
              (.ok [], { state with
                gates := (Conditional.Gates.alternative? false state.gates).getD
                  state.gates })) := by
  refine ⟨isExpression_iff table text, fun malformed joined => ?_⟩
  cases value : evaluate table text with
  | ok truth => exact absurd ((isExpression_iff table text).mpr ⟨⟨truth, value⟩, joined⟩) malformed
  | error problem =>
    refine ⟨⟨problem, rfl⟩, fun place line argument state macros expanded => ?_⟩
    exact closes_of_error value place line argument macros expanded

private theorem plain_letter {c : Char} (inside : isOperandChar c = true) :
    (Token.operand [c]).Plain :=
  ⟨List.cons_ne_nil c [], List.forall_mem_singleton.mpr inside⟩

private theorem tokenize_unfinished :
    tokenize "1 &&".toList = .ok [.operand ['1'], .operator .and] := by
  have spaced : Spaced [.operand ['1'], .operator .and] "1 &&".toList :=
    @Spaced.blank ' ' rfl (.operand ['1']) _ _ (.single _)
  refine tokenize_spaced spaced fun token member => ?_
  rcases List.mem_cons.mp member with rfl | last
  · exact plain_letter rfl
  · obtain rfl := List.mem_singleton.mp last
    trivial

theorem accepted_iff_expression_unfinished :
    ¬ IsExpression "1 &&".toList ∧ ¬ Juxtaposes "1 &&".toList ∧
      (∃ problem, evaluate {} "1 &&".toList = .error problem) ∧
      (Conditional.Pass.directive ⟨"main", 1⟩ [] "if" "1 &&".toList).result ⟨[true], {}⟩ =
        (.ok [], ⟨[false, true], {}⟩) := by
  have malformed : ¬ IsExpression "1 &&".toList := by
    rintro ⟨expression, read⟩
    rw [tokenize_unfinished] at read
    have sentence := expression.sentence
    rw [← Except.ok.inj read] at sentence
    cases sentence with
    | binary text between right => cases right
  have joined : ¬ Juxtaposes "1 &&".toList := by
    rintro ⟨tokens, read, apart⟩
    rw [tokenize_unfinished] at read
    cases read
    cases apart with
    | here text alone rest => cases alone
    | later first inside =>
      cases inside with
      | later first inside => cases inside
  have expanded : Macro.expand {} .nonEmpty "1 &&".toList = "1 &&".toList := by decide +kernel
  obtain ⟨failed, closes⟩ := (accepted_iff_expression {} "1 &&".toList).2 malformed joined
  exact ⟨malformed, joined, failed, (closes ⟨"main", 1⟩ [] _ ⟨[true], {}⟩ rfl expanded).1⟩

/-- Two operands and an operator after them: the order of a reverse Polish text, which no expression
has. -/
theorem postfix_accepted :
    (∃ truth, evaluate {} "1 2 &&".toList = .ok truth) ∧ ¬ IsExpression "1 2 &&".toList := by
  have spaced : Spaced [.operand ['1'], .operand ['2'], .operator .and] "1 2 &&".toList :=
    @Spaced.blank ' ' rfl (.operand ['1']) _ _
      (@Spaced.blank ' ' rfl (.operand ['2']) _ _ (.single _))
  have read : tokenize "1 2 &&".toList =
      .ok [.operand ['1'], .operand ['2'], .operator .and] := by
    refine tokenize_spaced spaced fun token member => ?_
    simp only [List.mem_cons, List.not_mem_nil, or_false] at member
    rcases member with rfl | rfl | rfl
    · exact plain_letter rfl
    · exact plain_letter rfl
    · trivial
  have apart : Juxtaposes "1 2 &&".toList := ⟨_, read, .here ['1'] rfl _⟩
  constructor
  · rw [evaluate_of_tokens read, if_neg (List.cons_ne_nil _ _)]
    exact ⟨_, rfl⟩
  · intro expression
    exact ((isExpression_iff {} _).mp expression).2 apart

end ShaderPipeline.Condition
