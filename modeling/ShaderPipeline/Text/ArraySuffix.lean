import ShaderPipeline.Text.Numeral

/-! Declared names with an optional array length, such as `lights[4];`. -/

namespace ShaderPipeline.Text

/-- The name and the array length of a declared name. Without brackets the length is one; a
length has to be a positive number, and only semicolons may follow its bracket. -/
def splitArraySuffix? (token : Text) : Option (Text × Nat) :=
  let token := trimEnd (dropTrailing ';' (trim token))
  match splitAt? '[' token with
  | none => if token.isEmpty || token.contains ']' then none else some (token, 1)
  | some (beforeBracket, afterBracket) => do
    let (inside, trailing) ← splitAt? ']' afterBracket
    let name := trimEnd beforeBracket
    if !(trim trailing).isEmpty || name.isEmpty then none
    else
      let length ← decimal? (trim inside)
      if length = 0 then none else some (name, length)

end ShaderPipeline.Text
