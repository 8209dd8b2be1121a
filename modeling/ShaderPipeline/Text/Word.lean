import ShaderPipeline.Text.Split

/-! Identifiers, and the replacement of whole words in a text. A text is read as maximal runs
of ASCII letters, digits and underscores with single characters between them; a run that
starts with a digit is a number and never a word to replace. -/

namespace ShaderPipeline.Text

def isWordChar (c : Char) : Bool := c.isAlphanum || c == '_'

def isWordStart (c : Char) : Bool := c.isAlpha || c == '_'

def isIdentifier : Text → Bool
  | [] => false
  | first :: rest => isWordStart first && rest.all isWordChar

inductive Piece where
  | run (text : Text)
  | mark (c : Char)
  deriving DecidableEq, Repr

namespace Piece

def text : Piece → Text
  | .run text => text
  | .mark c => [c]

/-- The word a piece holds, if it is a run that does not start with a digit. -/
def word? : Piece → Option Text
  | .run [] => none
  | .run (first :: rest) => if first.isDigit then none else some (first :: rest)
  | .mark _ => none

end Piece

/-- The maximal runs of word characters and the characters between them, in order. -/
def pieces : Text → List Piece
  | [] => []
  | c :: rest =>
    if isWordChar c then
      match pieces rest with
      | .run text :: others => .run (c :: text) :: others
      | others => .run [c] :: others
    else .mark c :: pieces rest

theorem flatMap_text_pieces (text : Text) : (pieces text).flatMap Piece.text = text := by
  induction text with
  | nil => rfl
  | cons c rest ih =>
    by_cases inWord : isWordChar c
    · simp only [pieces, inWord, ↓reduceIte]
      split
      next others split => rw [split] at ih; simpa [Piece.text] using ih
      next => simpa [Piece.text] using ih
    · simpa [pieces, inWord, Piece.text] using ih

/-- The words of a text in order. -/
def identifiers (text : Text) : List Text := (pieces text).filterMap Piece.word?

/-- Replaces every word for which `replace` has a replacement. -/
def replaceWords (replace : Text → Option Text) (text : Text) : Text :=
  (pieces text).flatMap fun piece => ((piece.word?).bind replace).getD piece.text

/-- Reads a text on from `ahead` and asks `replace` about each word. `uncopied` is the text behind
the last replacement, of which `read` characters are read; the parts put out before it are in `out`,
the last one first. A text without replacements is never copied. -/
def copyReplacing [Monad m] (replace : Text → m (Option Text)) (out : List Text)
    (uncopied : Text) (read : Nat) : (ahead : Text) → m (Option Text)
  | [] => return if out.isEmpty then none else some (uncopied :: out).reverse.flatten
  | c :: rest =>
    if isWordChar c then do
      let word := c :: rest.takeWhile isWordChar
      let behind := rest.dropWhile isWordChar
      if c.isDigit then copyReplacing replace out uncopied (read + word.length) behind
      else match ← replace word with
        | none => copyReplacing replace out uncopied (read + word.length) behind
        | some replacement =>
          copyReplacing replace (replacement :: uncopied.take read :: out) behind 0 behind
    else copyReplacing replace out uncopied (read + 1) rest
termination_by ahead => ahead.length
decreasing_by
  all_goals
    have shorter := (List.dropWhile_suffix isWordChar (l := rest)).length_le
    simp only [List.length_cons]
    omega

/-- Word replacement in which `replace` may have effects. It is called once for each word,
in order. -/
def replaceWordsM [Monad m] (replace : Text → m (Option Text)) (text : Text) : m Text := do
  return (← copyReplacing replace [] text 0 text).getD text

end ShaderPipeline.Text
