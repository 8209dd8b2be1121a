import ShaderPipeline.Proofs.Condition.Spelling

/-! Conditions come to the values of their expressions. While a part of an expression is read, the
operators that wait bind less tightly than the part, and what follows it binds no tighter; so the
part is closed before anything around it, and leaves its value on the stack. -/

namespace ShaderPipeline.Condition

/-- What can follow a part of a level: nothing, or an operator between two values that binds no
tighter. -/
inductive Follows (level : Nat) : List Token → Prop
  | nothing : Follows level []
  | operator {operator : Operator} (binary : operator ≠ .not)
      (loose : operator.precedence ≤ level) (rest : List Token) :
      Follows level (.operator operator :: rest)

theorem Follows.mono {level higher : Nat} {rest : List Token} (follows : Follows level rest)
    (tighter : level ≤ higher) : Follows higher rest := by
  cases follows with
  | nothing => exact .nothing
  | operator binary loose rest => exact .operator binary (Nat.le_trans loose tighter) rest

/-- Every operator that waits on top binds less tightly than a part of the level. -/
def Waits (level : Nat) (stack : List Operator) : Prop :=
  ∀ top ∈ stack.head?, top.precedence < level

theorem Waits.mono {level higher : Nat} {stack : List Operator} (waits : Waits level stack)
    (tighter : level ≤ higher) : Waits higher stack :=
  fun top here => Nat.lt_of_lt_of_le (waits top here) tighter

theorem reorder_binary {operator : Operator} (binary : operator ≠ .not) (stack : List Operator)
    (rest : List Token) :
    reorder stack (.operator operator :: rest) =
      (popTighter operator stack).1.map .operator ++
        reorder (operator :: (popTighter operator stack).2) rest := by
  cases operator with
  | not => exact absurd rfl binary
  | equal | notEqual | and | or => rfl

/-- An operator on top is done with where what follows binds no tighter. -/
theorem reorder_settle {operator : Operator} {rest : List Token}
    (follows : Follows operator.precedence rest) (stack : List Operator) :
    reorder (operator :: stack) rest = .operator operator :: reorder stack rest := by
  cases follows with
  | nothing => rfl
  | @operator next binary loose rest =>
    have popped : popTighter next (operator :: stack) =
        (operator :: (popTighter next stack).1, (popTighter next stack).2) := by
      rw [popTighter, if_neg (Nat.not_lt.mpr loose)]
    rw [reorder_binary binary, reorder_binary binary, popped]
    rfl

/-- An operator goes on a stack where all that waits binds less tightly. -/
theorem reorder_push {operator : Operator} (binary : operator ≠ .not) {stack : List Operator}
    (waits : Waits operator.precedence stack) (rest : List Token) :
    reorder stack (.operator operator :: rest) = reorder (operator :: stack) rest := by
  have kept : popTighter operator stack = ([], stack) := by
    cases stack with
    | nil => rfl
    | cons top below => rw [popTighter, if_pos (waits top rfl)]
  rw [reorder_binary binary, kept]
  rfl

variable {table : MacroTable}

theorem run_binary {operator : Operator} (binary : operator ≠ .not) (left right : Value)
    (values : List Value) (rest : List Token) :
    run table (right :: left :: values) (.operator operator :: rest) =
      run table (.truth (operator.apply table left right) :: values) rest := by
  cases operator with
  | not => exact absurd rfl binary
  | equal | notEqual | and | or => rfl

/-- Tokens of a level leave one value, whatever waits for them and whatever follows. -/
def ComesTo (table : MacroTable) (level : Nat) (tokens : List Token) (value : Value) : Prop :=
  ∀ (values : List Value) (stack : List Operator) (rest : List Token),
    Waits level stack → Follows level rest →
      run table values (reorder stack (tokens ++ rest)) =
        run table (value :: values) (reorder stack rest)

namespace ComesTo

variable {level : Nat} {tokens : List Token} {value : Value}

/-- A part of a tighter level is one of a looser level. -/
theorem loosen (tight : ComesTo table (level + 1) tokens value) :
    ComesTo table level tokens value := by
  intro values stack rest waits follows
  exact tight values stack rest (waits.mono (Nat.le_succ level))
    (follows.mono (Nat.le_succ level))

/-- An operator of a level joins what stands on its left to a tighter part on its right. -/
theorem join {right : List Token} {operand : Value} {operator : Operator}
    (left : ComesTo table operator.precedence tokens value) (binary : operator ≠ .not)
    (tight : ComesTo table (operator.precedence + 1) right operand) :
    ComesTo table operator.precedence (tokens ++ .operator operator :: right)
      (.truth (operator.apply table value operand)) := by
  intro values stack rest waits follows
  have opened : Waits (operator.precedence + 1) (operator :: stack) := by
    intro top here
    obtain rfl : operator = top := Option.some.inj here
    exact Nat.lt_succ_self _
  calc run table values (reorder stack ((tokens ++ .operator operator :: right) ++ rest))
      = run table values (reorder stack (tokens ++ .operator operator :: (right ++ rest))) := by
        rw [List.append_assoc, List.cons_append]
    _ = run table (value :: values) (reorder stack (.operator operator :: (right ++ rest))) :=
        left values stack _ waits (.operator binary (Nat.le_refl _) _)
    _ = run table (value :: values) (reorder (operator :: stack) (right ++ rest)) := by
        rw [reorder_push binary waits]
    _ = run table (operand :: value :: values) (reorder (operator :: stack) rest) :=
        tight (value :: values) (operator :: stack) rest opened
          (follows.mono (Nat.le_succ _))
    _ = run table (.truth (operator.apply table value operand) :: values)
          (reorder stack rest) := by
        rw [reorder_settle follows, run_binary binary]

/-- Operators of a level join parts from the left. -/
theorem chain {items : List α} {operator : α → Operator} {part : α → List Token}
    {operand : α → Value} (first : ComesTo table level tokens value)
    (others : ∀ item ∈ items, operator item ≠ .not ∧ (operator item).precedence = level ∧
      ComesTo table (level + 1) (part item) (operand item)) :
    ComesTo table level
      (tokens ++ items.flatMap fun item => .operator (operator item) :: part item)
      (items.foldl (fun left item => .truth ((operator item).apply table left (operand item)))
        value) := by
  induction items generalizing tokens value with
  | nil => simpa using first
  | cons item more ih =>
    obtain ⟨binary, rfl, tight⟩ := others item List.mem_cons_self
    have joined := first.join binary tight
    have rest := ih joined fun other member => others other (List.mem_cons_of_mem item member)
    simpa using rest

end ComesTo

/-- A `!` waits until its operand is read, so nothing that waits before it matters. -/
theorem Unary.run_tokens (unary : Unary) (values : List Value) (stack : List Operator)
    {rest : List Token} (follows : Follows Operator.not.precedence rest) :
    run table values (reorder stack (unary.tokens ++ rest)) =
      run table (unary.value table :: values) (reorder stack rest) := by
  induction unary generalizing values stack with
  | operand word => rfl
  | not inner ih =>
    calc run table values (reorder stack ((Unary.not inner).tokens ++ rest))
        = run table values (reorder (.not :: stack) (inner.tokens ++ rest)) := rfl
      _ = run table (inner.value table :: values) (reorder (.not :: stack) rest) :=
          ih values (.not :: stack)
      _ = run table ((Unary.not inner).value table :: values) (reorder stack rest) := by
          rw [reorder_settle follows]
          rfl

theorem Unary.comesTo (unary : Unary) :
    ComesTo table Operator.not.precedence unary.tokens (unary.value table) :=
  fun values stack _ _ follows => unary.run_tokens values stack follows

theorem Comparison.binary (comparison : Comparison) : comparison.operator ≠ .not := by
  cases comparison <;> decide

theorem Comparison.precedence (comparison : Comparison) :
    comparison.operator.precedence = Operator.equal.precedence := by
  cases comparison <;> rfl

theorem Comparison.apply_operator (comparison : Comparison) (left right : Value) :
    comparison.operator.apply table left right = comparison.holds left right := by
  cases comparison <;> rfl

theorem Equality.comesTo (equality : Equality) :
    ComesTo table Operator.equal.precedence equality.tokens (equality.value table) := by
  have chained := equality.first.comesTo.loosen.chain fun item (_ : item ∈ equality.others) =>
    ⟨item.1.binary, item.1.precedence, (item.2.comesTo : ComesTo table _ _ _)⟩
  simp only [Comparison.apply_operator] at chained
  exact chained

theorem Conjunction.comesTo (conjunction : Conjunction) :
    ComesTo table Operator.and.precedence conjunction.tokens (conjunction.value table) :=
  conjunction.first.comesTo.loosen.chain fun right _ => ⟨by decide, rfl, right.comesTo⟩

theorem Expression.comesTo (expression : Expression) :
    ComesTo table Operator.or.precedence expression.tokens (expression.value table) :=
  expression.first.comesTo.loosen.chain fun right _ => ⟨by decide, rfl, right.comesTo⟩

end ShaderPipeline.Condition
