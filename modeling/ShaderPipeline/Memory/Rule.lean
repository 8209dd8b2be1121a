import ShaderPipeline.Schema.Value
import ShaderPipeline.Word

/-! Memory rules: how much padding the values and structs of a buffer take. -/

namespace ShaderPipeline.Memory

/-- Alignment regimes of uniform and storage buffers. -/
inductive Rule where
  /-- Every column takes sixteen bytes, and struct sizes are multiples of sixteen. -/
  | std140
  /-- Columns of three components take sixteen bytes. -/
  | std430
  /-- No padding. -/
  | packed
  deriving DecidableEq, Repr

namespace Rule

def name : Rule → String
  | .std140 => "std140"
  | .std430 => "std430"
  | .packed => "packed"

def all : List Rule := [.std140, .std430, .packed]

/-- Reads a rule's name in letters of any case. -/
def ofName? (name : String) : Option Rule := all.find? (·.name == name.toLower)

/-- Bytes that a column of `rows` components takes. -/
def columnSize (rule : Rule) (rows : Nat) : Nat :=
  match rule with
  | .std140 => 16
  | .std430 => if rows = 3 then 16 else 4 * rows
  | .packed => 4 * rows

/-- Size of a value with its padding. -/
def valueSize (rule : Rule) (type : Schema.ValueType) : Nat :=
  rule.columnSize type.rows * type.columns

/-- The least multiple of sixteen from `size` on. -/
def roundUp (size : Nat) : Nat := (size + 15) / 16 * 16

/-- Size of a struct whose members take `members` bytes. -/
def structSize (rule : Rule) (members : Nat) : Except Overflow Nat :=
  match rule with
  | .std140 => if roundUp members ≤ wordMax then .ok (roundUp members) else .error .add
  | .std430 | .packed => .ok members

end Rule

end ShaderPipeline.Memory
