import ShaderPipeline.Text.Unprinted

/-! Quoted text for messages: a string between double quotes, with escapes for quotes,
backslashes and what does not print. -/

namespace ShaderPipeline

/-- One character of a quoted string. -/
def Text.quotedChar (c : Char) : String :=
  if c = '"' then "\\\""
  else if c = '\\' then "\\\\"
  else if c = '\n' then "\\n"
  else if c = '\r' then "\\r"
  else if c = '\t' then "\\t"
  else if c = '\x00' then "\\0"
  else if Text.isUnprinted c then
    "\\u\x7b" ++ String.ofList (Nat.toDigits 16 c.toNat) ++ "\x7d"
  else c.toString

def quoted (name : String) : String :=
  "\"" ++ String.join (name.toList.map Text.quotedChar) ++ "\""

/-- Quoted names between square brackets. -/
def quotedList (names : List String) : String :=
  "[" ++ ", ".intercalate (names.map quoted) ++ "]"

end ShaderPipeline
