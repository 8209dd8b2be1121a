/-! Text as a list of characters, and its blank characters: the Unicode property
White_Space, with the trimming and word splitting that rest on it. -/

namespace ShaderPipeline

/-- Running text: documents, lines, macro values. Names are `String`s. -/
abbrev Text := List Char

namespace Text

/-- A text as a string. -/
def string (text : Text) : String := String.ofList text

/-- The 25 code points of White_Space. -/
def isBlank (c : Char) : Bool :=
  let code := c.toNat
  (0x09 ≤ code && code ≤ 0x0D) || code == 0x20 || code == 0x85 || code == 0xA0 ||
    code == 0x1680 || (0x2000 ≤ code && code ≤ 0x200A) || code == 0x2028 || code == 0x2029 ||
    code == 0x202F || code == 0x205F || code == 0x3000

def trimStart (text : Text) : Text := text.dropWhile isBlank

def trimEnd (text : Text) : Text := (text.reverse.dropWhile isBlank).reverse

def trim (text : Text) : Text := trimEnd (trimStart text)

/-- A text without the marks at its end. -/
def dropTrailing (mark : Char) (text : Text) : Text :=
  (text.reverse.dropWhile (· == mark)).reverse

/-- The characters up to the first blank, and the words after it. -/
def leadingWord : Text → Text × List Text
  | [] => ([], [])
  | c :: rest =>
    let (word, words) := leadingWord rest
    if isBlank c then ([], if word.isEmpty then words else word :: words)
    else (c :: word, words)

/-- The maximal runs of characters that are not blank. -/
def words (text : Text) : List Text :=
  let (word, others) := leadingWord text
  if word.isEmpty then others else word :: others

@[simp] theorem words_nil : words [] = [] := rfl

theorem words_cons_blank {c : Char} (blank : isBlank c = true) (rest : Text) :
    words (c :: rest) = words rest := by
  simp [words, leadingWord, blank]

/-- Words joined by single spaces. -/
def joinWords (words : List Text) : Text := List.intercalate [' '] words

end Text

end ShaderPipeline
