import ShaderPipeline.Proofs.Include.Unfolding
import ShaderPipeline.Proofs.Program.Prelude

/-! Comments across the seams of an expansion. A seamless splice leaves to every line the code and
the comment state that it has in its own text. -/

namespace ShaderPipeline

namespace Text

namespace CommentState

/-- The state at the start of the line after the given ones. -/
def afterLines (state : CommentState) (lines : List Text) : CommentState :=
  lines.foldl afterLine state

theorem AtStart.afterLines {state : CommentState} (start : state.AtStart) (lines : List Text) :
    (state.afterLines lines).AtStart := by
  induction lines generalizing state with
  | nil => exact start
  | cons line rest ih => exact ih (state.atStart_afterLine line)

private theorem afterLines_cons (state : CommentState) (line : Text) (rest : List Text) :
    state.afterLines (line :: rest) = (state.afterLine line).afterLines rest := rfl

private theorem afterLines_append (state : CommentState) (first second : List Text) :
    state.afterLines (first ++ second) = (state.afterLines first).afterLines second :=
  List.foldl_append

private theorem afterLine_append_newline (state : CommentState) (first second : Text) :
    state.afterLine (first ++ '\n' :: second) = (state.afterLine first).afterLine second := by
  simp [afterLine, after]

theorem AtStart.afterLine_joinLines {state : CommentState} (start : state.AtStart)
    (lines : List Text) : state.afterLine (joinLines lines) = state.afterLines lines := by
  induction lines generalizing state with
  | nil => rcases start with rfl | rfl <;> rfl
  | cons line rest ih =>
    by_cases last : rest = []
    · rw [last, joinLines_singleton]
      rfl
    · rw [← List.singleton_append, joinLines_append (List.cons_ne_nil line []) last,
        joinLines_singleton, afterLine_append_newline, ih (state.atStart_afterLine line)]
      rfl

private theorem trim_stripped_dropReturn (state : CommentState) (line : Text) :
    trim (state.stripped (dropReturn line)) = trim (state.stripped line) := by
  rcases dropReturn_cases line with same | longer
  · rw [same]
  · conv => rhs; rw [longer]
    rcases state.stripped_append_return (dropReturn line) with kept | gone
    · rw [kept, trim_append_blank rfl]
    · rw [gone]

end CommentState

theorem codesFrom_append (state : CommentState) (first second : List Text) :
    codesFrom state (first ++ second) =
      codesFrom state first ++ codesFrom (state.afterLines first) second := by
  induction first generalizing state with
  | nil => rfl
  | cons line rest ih => exact congrArg (List.cons _) (ih (state.afterLine line))

end Text

namespace Include

open Text

/-- A text that ends with its line and leaves no comment open stands before another one line by
line. -/
theorem linesWithCode_append {text : Text} (ended : text.getLast? = some '\n')
    (closed : Closed text) (body : Text) :
    linesWithCode (text ++ body) = linesWithCode text ++ linesWithCode body := by
  obtain ⟨head, rfl⟩ := List.getLast?_eq_some_iff.mp ended
  have code : CommentState.code.afterLine head = .code := by
    rw [Closed, CommentState.afterLine_append_newline] at closed
    rcases CommentState.code.atStart_afterLine head with same | block
    · exact same
    · rw [block] at closed
      cases closed
  rw [List.append_assoc, List.singleton_append, linesWithCode_append_newline,
    linesWithCode_append_newline, code, List.append_assoc]
  rfl

/-- No line of a text that ends with its line drops out. -/
theorem length_linesWithCode {text : Text} (ended : text.getLast? = some '\n') :
    (linesWithCode text).length = (lines text).length := by
  obtain ⟨head, rfl⟩ := List.getLast?_eq_some_iff.mp ended
  rw [linesWithCode_append_newline, lines_append_newline, lines_nil, List.zip_nil_left,
    List.append_nil, List.append_nil, endedWithCode, List.length_zip, length_endedLines,
    length_endedLines, count_stripComments, Nat.min_self]

theorem Plain.unfolds {text : Text} (plain : Plain text) (admits : Problem → Prop)
    (providers : Providers) (chain : List String) :
    Unfolds admits providers chain (linesWithCode text) (linesWithCode text) :=
  .of_plain fun _ member => plain _ (List.of_mem_zip member).2

/-! ### Splices that leave comments alone -/

/-- Read behind the lines before it, each line has its own code, up to blanks at the ends. -/
def OwnCodes (state : CommentState) (pairs : List (Text × Text)) : Prop :=
  (codesFrom state (pairs.map Prod.fst)).map trim = (pairs.map Prod.snd).map trim

theorem OwnCodes.shownLines_eq {state : CommentState} {pairs : List (Text × Text)}
    (own : OwnCodes state pairs) :
    shownLines (codesFrom state (pairs.map Prod.fst)) = shownLines (pairs.map Prod.snd) :=
  congrArg (List.filter _) own

theorem ownCodes_cons {state : CommentState} {line code : Text} {rest : List (Text × Text)} :
    OwnCodes state ((line, code) :: rest) ↔
      trim (state.stripped line) = trim code ∧ OwnCodes (state.afterLine line) rest := by
  simp [OwnCodes, codesFrom]

theorem OwnCodes.append {state : CommentState} {first second : List (Text × Text)}
    (own : OwnCodes state first)
    (follows : OwnCodes (state.afterLines (first.map Prod.fst)) second) :
    OwnCodes state (first ++ second) := by
  rw [OwnCodes] at own follows ⊢
  rw [List.map_append, codesFrom_append, List.map_append, own, follows, List.map_append,
    List.map_append]

private theorem ownCodes_pairsFrom (state : CommentState) (pieces : List Text) :
    OwnCodes state (pairsFrom state pieces) := by
  induction pieces generalizing state with
  | nil => rfl
  | cons line rest ih =>
    cases rest with
    | nil =>
      rw [pairsFrom]
      split <;> rfl
    | cons next rest =>
      rw [pairsFrom, ownCodes_cons, state.trim_stripped_dropReturn, trim_dropReturn,
        state.afterLine_dropReturn]
      exact ⟨rfl, ih _⟩

theorem ownCodes_linesWithCode (text : Text) : OwnCodes .code (linesWithCode text) := by
  rw [linesWithCode_eq]
  exact ownCodes_pairsFrom .code _

/-- Every include line starts and ends outside block comments. -/
def SplicesOutside : CommentState → List (Text × Text) → Prop
  | _, [] => True
  | state, (line, code) :: rest =>
    (LineKind.ofLine code ≠ .plain → state = .code ∧ state.afterLine line = .code) ∧
      SplicesOutside (state.afterLine line) rest

/-- A text that can be spliced anywhere: its own splices lie outside block comments, and the lines
that expansion takes of it leave no comment open. -/
structure Seamless (text : Text) : Prop where
  outside : SplicesOutside .code (linesWithCode text)
  closed : Closed (resolved text)

theorem closed_joinLines_iff (lines : List Text) :
    Closed (joinLines lines) ↔ CommentState.code.afterLines lines = .code := by
  rw [Closed, CommentState.AtStart.afterLine_joinLines (.inl rfl)]

theorem closed_resolved_iff (text : Text) :
    Closed (resolved text) ↔ CommentState.code.afterLines (ownLines text) = .code :=
  closed_joinLines_iff _

/-- A mark behind some lines shows only if they leave no comment open. -/
theorem afterLines_eq_code_of_mark {lines : List Text}
    (shows : shownLines (codesFrom (CommentState.code.afterLines lines) (ownLines [';'])) =
      shownLines ((linesWithCode [';']).map Prod.snd)) :
    CommentState.code.afterLines lines = .code := by
  rcases CommentState.AtStart.afterLines (.inl rfl) lines with code | block
  · exact code
  · rw [block] at shows
    have hides : shownLines (codesFrom (.block false) (ownLines [';'])) ≠
        shownLines ((linesWithCode [';']).map Prod.snd) := by decide +kernel
    exact absurd shows hides

/-- A seamless splice changes neither the code nor the comment state of any line. -/
theorem Unfolds.ownCodes {admits : Problem → Prop} {providers : Providers} {chain : List String}
    {pairs kept : List (Text × Text)} (unfolds : Unfolds admits providers chain pairs kept)
    (quiet : ∀ problem, admits problem → Closed problem.marker)
    (texts : ∀ (name : String) (text : Text), providers[name]? = some (.fixed text) →
      Seamless text)
    {state : CommentState} (outside : SplicesOutside state pairs) (own : OwnCodes state pairs) :
    OwnCodes state kept ∧
      state.afterLines (kept.map Prod.fst) = state.afterLines (pairs.map Prod.fst) := by
  induction unfolds generalizing state with
  | nil => exact ⟨own, rfl⟩
  | keep plain follows ih =>
    obtain ⟨here, others⟩ := ownCodes_cons.mp own
    obtain ⟨codes, state⟩ := ih outside.2 others
    exact ⟨ownCodes_cons.mpr ⟨here, codes⟩, state⟩
  | @mark chain line code problem rest kept here admitted follows ih =>
    obtain ⟨rfl, ends⟩ := outside.1 here.not_plain
    obtain ⟨codes, state⟩ := ih outside.2 (ownCodes_cons.mp own).2
    have closed : CommentState.code.afterLine problem.marker = .code := quiet problem admitted
    refine ⟨ownCodes_cons.mpr ⟨rfl, by rwa [closed, ← ends]⟩, ?_⟩
    rw [List.map_cons, List.map_cons, CommentState.afterLines_cons, CommentState.afterLines_cons,
      closed, ← state, ends]
  | @splice chain line code text name inner rest kept asks idle found inside follows ihInside ih =>
    -- The include line stands in code, so the text is read as it is read on its own, and it gives
    -- way to the rest of the lines in the state that the include line leaves.
    have seamless := texts name text found
    have closed := (closed_resolved_iff text).mp seamless.closed
    obtain ⟨rfl, ends⟩ := outside.1 (by simp [asks])
    obtain ⟨innerCodes, innerState⟩ := ihInside seamless.outside (ownCodes_linesWithCode text)
    have after : CommentState.code.afterLines (inner.map Prod.fst) = .code :=
      innerState.trans closed
    obtain ⟨codes, state⟩ := ih outside.2 (ownCodes_cons.mp own).2
    rw [ends] at codes state
    refine ⟨innerCodes.append (by rwa [after]), ?_⟩
    rw [List.map_append, CommentState.afterLines_append, after, state, List.map_cons,
      CommentState.afterLines_cons, ends]

instance (state : CommentState) (pairs : List (Text × Text)) :
    Decidable (SplicesOutside state pairs) :=
  match pairs with
  | [] => .isTrue trivial
  | (line, _) :: rest =>
    have := instDecidableSplicesOutside (state.afterLine line) rest
    inferInstanceAs (Decidable (_ ∧ _))

instance (text : Text) : Decidable (Seamless text) :=
  decidable_of_iff (SplicesOutside .code (linesWithCode text) ∧ Closed (resolved text))
    ⟨fun ⟨outside, closed⟩ => ⟨outside, closed⟩,
      fun seamless => ⟨seamless.outside, seamless.closed⟩⟩

end Include

end ShaderPipeline
