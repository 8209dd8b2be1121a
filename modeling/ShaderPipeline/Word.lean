/-! Words of 32 bits, and arithmetic that has no answer in them. -/

namespace ShaderPipeline

abbrev Word := BitVec 32

/-- The largest number that a word holds. -/
def wordMax : Nat := 0xFFFFFFFF

/-- An operation whose result or whose shift amount leaves 32 bits. -/
inductive Overflow where
  | add
  | subtract
  | shiftLeft
  | shiftRight
  deriving DecidableEq, Repr

def Overflow.message : Overflow → String
  | .add => "attempt to add with overflow"
  | .subtract => "attempt to subtract with overflow"
  | .shiftLeft => "attempt to shift left with overflow"
  | .shiftRight => "attempt to shift right with overflow"

end ShaderPipeline
