import ShaderPipeline.Condition.Evaluation

/-! Conditions as expressions: operands under `!`, compared with each other, joined by `&&`, and
those joined by `||`. An expression is written as tokens with blanks between them, and its value is
read off it level by level, from the left on each. -/

namespace ShaderPipeline.Condition

/-- What can stand as an operand. -/
structure Operand where
  text : Text
  inhabited : text ≠ []
  plain : ∀ c ∈ text, isOperandChar c = true

/-- An operand under any number of `!`. -/
inductive Unary where
  | operand (operand : Operand)
  | not (inner : Unary)

inductive Comparison where
  | equal
  | notEqual
  deriving DecidableEq, Repr

/-- Unary expressions, each compared with what those before it come to. -/
structure Equality where
  first : Unary
  others : List (Comparison × Unary)

/-- Equalities joined by `&&`. -/
structure Conjunction where
  first : Equality
  others : List Equality

/-- A whole condition: conjunctions joined by `||`. -/
structure Expression where
  first : Conjunction
  others : List Conjunction

/-! ### Writing -/

def Unary.tokens : Unary → List Token
  | .operand word => [.operand word.text]
  | .not inner => .operator .not :: inner.tokens

def Comparison.operator : Comparison → Operator
  | .equal => .equal
  | .notEqual => .notEqual

def Equality.tokens (equality : Equality) : List Token :=
  equality.first.tokens ++ equality.others.flatMap fun (comparison, right) =>
    .operator comparison.operator :: right.tokens

def Conjunction.tokens (conjunction : Conjunction) : List Token :=
  conjunction.first.tokens ++ conjunction.others.flatMap fun right =>
    .operator .and :: right.tokens

def Expression.tokens (expression : Expression) : List Token :=
  expression.first.tokens ++ expression.others.flatMap fun right =>
    .operator .or :: right.tokens

def Token.spelling : Token → Text
  | .operand text => text
  | .operator sign => sign.symbol.toList

/-- Tokens as a text, with one blank or more between any two of them. -/
inductive Spaced : List Token → Text → Prop
  | single (token : Token) : Spaced [token] token.spelling
  | cons (token : Token) {gap : Text} {tokens : List Token} {text : Text} (apart : gap ≠ [])
      (blank : ∀ c ∈ gap, Text.isBlank c = true) (others : Spaced tokens text) :
      Spaced (token :: tokens) (token.spelling ++ gap ++ text)

/-- One blank between two tokens is enough. -/
theorem Spaced.blank {c : Char} (blank : Text.isBlank c = true) (token : Token)
    {tokens : List Token} {text : Text} (others : Spaced tokens text) :
    Spaced (token :: tokens) (token.spelling ++ [c] ++ text) :=
  .cons token (List.cons_ne_nil c []) (List.forall_mem_singleton.mpr blank) others

/-! ### Values -/

section Values

variable (table : MacroTable)

def Unary.value : Unary → Value
  | .operand word => .text word.text
  | .not inner => .truth (!inner.value.holds table)

/-- Comparisons are of texts. A truth that has been computed is compared as `1` or `0`. -/
def Comparison.holds (left right : Value) : Comparison → Bool
  | .equal => left.asText = right.asText
  | .notEqual => left.asText ≠ right.asText

def Equality.value (equality : Equality) : Value :=
  equality.others.foldl
    (fun left (comparison, right) => .truth (comparison.holds left (right.value table)))
    (equality.first.value table)

def Conjunction.value (conjunction : Conjunction) : Value :=
  conjunction.others.foldl
    (fun left right => .truth (left.holds table && (right.value table).holds table))
    (conjunction.first.value table)

def Expression.value (expression : Expression) : Value :=
  expression.others.foldl
    (fun left right => .truth (left.holds table || (right.value table).holds table))
    (expression.first.value table)

def Expression.holds (expression : Expression) : Bool := (expression.value table).holds table

end Values

end ShaderPipeline.Condition
