import ShaderPipeline.Text.Split

/-! Lines of a text. A newline ends a line and takes one carriage return before it along;
a last line without a newline counts unless it is empty, and keeps its carriage return. -/

namespace ShaderPipeline.Text

def joinLines (lines : List Text) : Text := List.intercalate ['\n'] lines

/-- One carriage return at the end of a line belongs to the newline after it. -/
def dropReturn (line : Text) : Text :=
  if line.getLast? = some '\r' then line.dropLast else line

/-- Reads the pieces between newlines as lines. -/
def linesOfPieces : List Text → List Text
  | [] => []
  | [last] => if last.isEmpty then [] else [last]
  | line :: next :: rest => dropReturn line :: linesOfPieces (next :: rest)

def lines (text : Text) : List Text := linesOfPieces (splitEvery '\n' text)

@[simp] theorem lines_nil : lines [] = [] := rfl

end ShaderPipeline.Text
