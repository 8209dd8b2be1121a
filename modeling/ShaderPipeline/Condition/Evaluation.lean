import ShaderPipeline.Condition.Token
import ShaderPipeline.Macro.Expansion
import ShaderPipeline.Text.Numeral

/-! Evaluation of conditions. Tokens are put into reverse Polish order by the precedence of
their operators, and then run on a stack of values. -/

namespace ShaderPipeline.Condition

/-- Appends the operators on top of the stack that bind at least as tightly as `operator`, and
gives the rest of the stack. -/
def popTighter (operator : Operator) : List Operator → List Operator × List Operator
  | [] => ([], [])
  | top :: stack =>
    if top.precedence < operator.precedence then ([], top :: stack)
    else
      let (popped, rest) := popTighter operator stack
      (top :: popped, rest)

/-- Reverse Polish order of tokens, read with a stack of waiting operators. A `!` waits for what
is on its right and so pushes nothing out. -/
def reorder (stack : List Operator) : List Token → List Token
  | [] => stack.map .operator
  | .operand text :: rest => .operand text :: reorder stack rest
  | .operator .not :: rest => reorder (.not :: stack) rest
  | .operator operator :: rest =>
    let (popped, stack) := popTighter operator stack
    popped.map .operator ++ reorder (operator :: stack) rest

def reversePolish (tokens : List Token) : List Token := reorder [] tokens

/-- A value on the stack: an operand's text, or a computed truth. -/
inductive Value where
  | text (text : Text)
  | truth (computed : Bool)
  deriving DecidableEq, Repr

/-- An operand holds if it is `true`, a number other than zero, or the name of a macro. Only
macros with an empty value still stand by name once a condition has been expanded. -/
def operandHolds (table : MacroTable) (text : Text) : Bool :=
  if text = "true".toList then true
  else if text = "false".toList then false
  else match Text.isNonzeroNumber? text with
    | some nonzero => nonzero
    | none => table.contains text.string

namespace Value

def holds (table : MacroTable) : Value → Bool
  | .text operand => operandHolds table operand
  | .truth computed => computed

/-- The text by which values are compared. -/
def asText : Value → Text
  | .text operand => operand
  | .truth true => ['1']
  | .truth false => ['0']

end Value

/-- The truth of a binary operator. -/
def Operator.apply (table : MacroTable) (left right : Value) : Operator → Bool
  | .equal => left.asText = right.asText
  | .notEqual => left.asText ≠ right.asText
  | .and => left.holds table && right.holds table
  | .or => left.holds table || right.holds table
  | .not => !right.holds table

/-- Runs tokens in reverse Polish order on a stack of values, the top first. -/
def run (table : MacroTable) (values : List Value) : List Token → Except Error (List Value)
  | [] => .ok values
  | .operand text :: rest => run table (.text text :: values) rest
  | .operator .not :: rest =>
    match values with
    | value :: values => run table (.truth (!value.holds table) :: values) rest
    | [] => .error (.missingOperand .not)
  | .operator operator :: rest =>
    match values with
    | right :: left :: values => run table (.truth (operator.apply table left right) :: values) rest
    | _ => .error (.missingOperand operator)

/-- A finished run has a single value; of more, the two on top lack an operator. -/
def outcome (table : MacroTable) : List Value → Except Error Bool
  | [] => .error .empty
  | [value] => .ok (value.holds table)
  | top :: below :: _ => .error (.missingOperator below.asText top.asText)

/-- The truth of a condition in which macros have been expanded. -/
def evaluate (table : MacroTable) (text : Text) : Except Error Bool := do
  let tokens ← tokenize text
  if tokens.isEmpty then throw .empty
  outcome table (← run table [] (reversePolish tokens))

end ShaderPipeline.Condition
