import ShaderPipeline.Text.Blank

/-! Tokens of conditions: operands, and the operators `!`, `==`, `!=`, `&&` and `||`. There are
no parentheses. -/

namespace ShaderPipeline.Condition

inductive Operator where
  | not
  | equal
  | notEqual
  | and
  | or
  deriving DecidableEq, Repr

namespace Operator

def precedence : Operator → Nat
  | .not => 4
  | .equal | .notEqual => 3
  | .and => 2
  | .or => 1

def symbol : Operator → String
  | .not => "!"
  | .equal => "=="
  | .notEqual => "!="
  | .and => "&&"
  | .or => "||"

end Operator

inductive Token where
  | operand (text : Text)
  | operator (operator : Operator)
  deriving DecidableEq, Repr

/-- Why a condition has no value. -/
inductive Error where
  | empty
  | parenthesis
  | unexpected (c : Char)
  | missingOperand (operator : Operator)
  | missingOperator (left right : Text)
  deriving DecidableEq, Repr

def Error.message : Error → String
  | .empty => "empty condition"
  | .parenthesis => "parentheses are not supported in conditions"
  | .unexpected c => s!"unexpected character '{c}'"
  | .missingOperand operator => s!"operator '{operator.symbol}' is missing an operand"
  | .missingOperator left right =>
    s!"operands '{left.string}' and '{right.string}' are not joined by an operator"

/-- Operands end at blanks and at every character that an operator or a parenthesis has. -/
def isOperandChar (c : Char) : Bool :=
  !(Text.isBlank c || ['&', '|', '=', '!', '(', ')'].contains c)

/-- The operator that is written as the character twice. -/
def doubled? : Char → Option Operator
  | '&' => some .and
  | '|' => some .or
  | '=' => some .equal
  | _ => none

/-- Reads a condition as tokens. The first character that fits no token is the error. -/
def tokenize : Text → Except Error (List Token)
  | [] => .ok []
  | c :: rest =>
    if Text.isBlank c then tokenize rest
    else if c = '(' ∨ c = ')' then .error .parenthesis
    else if c = '!' then
      match rest with
      | '=' :: rest => (tokenize rest).map (.operator .notEqual :: ·)
      | rest => (tokenize rest).map (.operator .not :: ·)
    else match doubled? c with
      | some operator =>
        match rest with
        | [] => .error (.unexpected c)
        | second :: rest =>
          if second = c then (tokenize rest).map (.operator operator :: ·)
          else .error (.unexpected c)
      | none =>
        (tokenize (rest.dropWhile isOperandChar)).map
          (.operand (c :: rest.takeWhile isOperandChar) :: ·)
termination_by text => text.length
decreasing_by
  all_goals
    have shorter := (List.dropWhile_suffix (l := rest) isOperandChar).length_le
    simp only [List.length_cons]
    omega

end ShaderPipeline.Condition
