import ShaderPipeline.Text.Word

/-! Directive lines: a number sign, a name and the rest of the line. -/

namespace ShaderPipeline

/-- A line `#name argument`; the argument has no blanks at its ends. -/
structure Directive where
  name : String
  argument : Text
  deriving DecidableEq, Repr

/-- Reads a directive line. Blanks may stand before the number sign and after it. -/
def Directive.ofLine? (line : Text) : Option Directive := do
  let afterSign ← Text.dropStart? ['#'] (Text.trimStart line)
  let body := Text.trimStart afterSign
  let name := body.takeWhile Text.isWordChar
  if name.isEmpty then none
  else some ⟨String.ofList name, Text.trim (body.dropWhile Text.isWordChar)⟩

end ShaderPipeline
