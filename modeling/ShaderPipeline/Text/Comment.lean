import ShaderPipeline.Text.Blank

/-! Comments of shader sources: `//` to the end of the line and block comments, neither of
which starts inside a double-quoted string. Removal keeps every newline, so line numbers
survive it. -/

namespace ShaderPipeline.Text

/-- Where a reader stands in a source text. -/
inductive CommentState where
  | code
  /-- After a slash that may open a comment. -/
  | slash
  | quoted
  | line
  /-- In a block comment; `star` when the last character was an asterisk. -/
  | block (star : Bool)
  deriving DecidableEq, Repr

namespace CommentState

/-- The state after one more character. -/
def next : CommentState → Char → CommentState
  | .code, c => if c = '"' then .quoted else if c = '/' then .slash else .code
  | .slash, c =>
    if c = '/' then .line else if c = '*' then .block false
    else if c = '"' then .quoted else .code
  | .quoted, c => if c = '"' ∨ c = '\n' then .code else .quoted
  | .line, c => if c = '\n' then .code else .line
  | .block star, c => if star ∧ c = '/' then .code else .block (c = '*')

/-- What one more character releases. A slash waits for the character after it. -/
def released : CommentState → Char → Text
  | .code, c => if c = '/' then [] else [c]
  | .slash, c => if c = '/' ∨ c = '*' then [] else ['/', c]
  | .quoted, c => [c]
  | .line, c | .block _, c => if c = '\n' then ['\n'] else []

/-- What the end of the text releases. -/
def pending : CommentState → Text
  | .slash => ['/']
  | _ => []

/-- The state after a text. -/
def after (state : CommentState) (text : Text) : CommentState := text.foldl next state

/-- What a text releases when read from `state`, its end left open. -/
def emitted : CommentState → Text → Text
  | _, [] => []
  | state, c :: rest => state.released c ++ (state.next c).emitted rest

theorem after_append (state : CommentState) (first second : Text) :
    state.after (first ++ second) = (state.after first).after second :=
  List.foldl_append

theorem emitted_append (state : CommentState) (first second : Text) :
    state.emitted (first ++ second) =
      state.emitted first ++ (state.after first).emitted second := by
  induction first generalizing state with
  | nil => rfl
  | cons c rest ih => simp [emitted, after, ih]

end CommentState

/-- Removes comments and keeps all newlines. -/
def stripComments (text : Text) : Text :=
  CommentState.code.emitted text ++ (CommentState.code.after text).pending

/-- A newline never releases more or less than itself, but for a waiting slash. -/
theorem CommentState.count_emitted (state : CommentState) (text : Text) :
    (state.emitted text).count '\n' = text.count '\n' := by
  induction text generalizing state with
  | nil => rfl
  | cons c rest ih =>
    rw [emitted, List.count_append, ih, List.count_cons]
    cases state <;> simp only [released] <;> grind

theorem count_stripComments (text : Text) :
    (stripComments text).count '\n' = text.count '\n' := by
  rw [stripComments, List.count_append, CommentState.count_emitted]
  cases CommentState.code.after text <;> simp [CommentState.pending]

end ShaderPipeline.Text
