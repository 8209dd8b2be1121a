import ShaderPipeline.Text.Split

/-! Statements between semicolons, and the headers and bodies of blocks in braces. -/

namespace ShaderPipeline.Text

/-- The statements between semicolons, without blank ones. -/
def statements (text : Text) : List Text :=
  ((splitEvery ';' text).map trim).filter fun statement => !statement.isEmpty

/-- The part of a block that is on one line: statements, and what follows the closing brace if
the line has it. -/
structure BlockLine where
  inner : Text
  after? : Option Text
  deriving DecidableEq, Repr

namespace BlockLine

def ofText (text : Text) : BlockLine :=
  match splitAt? '\x7d' text with
  | none => ⟨text, none⟩
  | some (inner, after) => ⟨inner, some after⟩

def closes (line : BlockLine) : Bool := line.after?.isSome

/-- What follows the closing brace and the semicolons after it, unless it is blank. -/
def trailing? (line : BlockLine) : Option Text := do
  let after ← line.after?
  let rest := trim ((trim after).dropWhile (· == ';'))
  if rest.isEmpty then none else some rest

end BlockLine

/-- A header's text before the opening brace, and the block after it. -/
def splitHeader (text : Text) : Text × Option Text :=
  match splitAt? '\x7b' text with
  | none => (trim text, none)
  | some (head, body) => (trim head, some body)

end ShaderPipeline.Text
