import ShaderPipeline.Text.Comment
import ShaderPipeline.Text.Lines

/-! Documents without comments and blank lines, the form that section reading starts from. -/

namespace ShaderPipeline.Text

/-- Keeps the lines with a character that is not blank, each ended by a newline and without
blanks before it. -/
def dropBlankLines (text : Text) : Text :=
  (((lines text).map trimEnd).filter fun line => !line.isEmpty).flatMap (· ++ ['\n'])

/-- A document without comments and blank lines. -/
def cleanDocument (text : Text) : Text := dropBlankLines (stripComments text)

end ShaderPipeline.Text
