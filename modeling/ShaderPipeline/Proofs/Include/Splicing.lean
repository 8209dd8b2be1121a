import ShaderPipeline.Program.Stage
import ShaderPipeline.Proofs.Logged
import ShaderPipeline.Proofs.Text.Codes
import ShaderPipeline.Proofs.Text.Words

/-! Include expansion of a text without include lines, and of an include line in front of one. -/

namespace ShaderPipeline.Include

open Text

/-- Names that an include line can hold between quotes. -/
structure Quotable (name : String) : Prop where
  nonempty : name.toList ≠ []
  trimmed : trim name.toList = name.toList
  unquoted : '"' ∉ name.toList
  single : '\n' ∉ name.toList

/-- No line of the text asks for an include, in a proper form or not. -/
def Plain (text : Text) : Prop := ∀ code ∈ lines (stripComments text), LineKind.ofLine code = .plain

/-- The lines that expansion keeps of a text without include lines. -/
def ownLines (text : Text) : List Text := (linesWithCode text).map Prod.fst

/-- What expansion makes of a text without include lines. -/
def resolved (text : Text) : Text := joinLines (ownLines text)

private theorem expandLines_plain (providers : Providers) (chain : List String)
    {pairs : List (Text × Text)} (plain : ∀ pair ∈ pairs, LineKind.ofLine pair.2 = .plain) :
    expandLines providers chain pairs = pure (pairs.map Prod.fst) := by
  induction pairs with
  | nil => rw [expandLines]; rfl
  | cons pair rest ih =>
    obtain ⟨line, code⟩ := pair
    have here : LineKind.ofLine code = .plain := plain (line, code) (by simp)
    rw [expandLines, here, ih fun pair member => plain pair (by simp [member])]
    simp

theorem Plain.expandLines {text : Text} (plain : Plain text) (providers : Providers)
    (chain : List String) :
    expandLines providers chain (linesWithCode text) = pure (ownLines text) := by
  refine expandLines_plain providers chain fun pair member => ?_
  obtain ⟨line, code⟩ := pair
  exact plain code (List.of_mem_zip member).2

theorem value_expand {text : Text} (plain : Plain text) (registry : Registry) :
    (expand text registry).value = (resolved text, registry) := by
  rw [expand, plain.expandLines]
  rfl

/-- An include line gives way to the lines of the text it names. -/
theorem expandLines_splice {registry : Registry} {name : String} {library code : Text}
    (line : Text) (registered : (registry.get? name).1 = some library) (plain : Plain library)
    (asks : LineKind.ofLine code = .splice name) {rest : List (Text × Text)} {others : List Text}
    (follows : expandLines registry.providers [] rest = pure others) :
    ((expandLines registry.providers [] ((line, code) :: rest)).run registry.calls).value =
      (ownLines library ++ others, (registry.get? name).2.calls) := by
  rw [expandLines, asks, follows]
  simp only [List.not_mem_nil, ↓reduceDIte, List.nil_append]
  split
  next missing => simp [Registry.get?, missing] at registered
  next provider found =>
    simp only [Registry.get?, found, Option.some.injEq] at registered ⊢
    have own : expandLines registry.providers [name]
        (linesWithCode (provider (CallCounts.ask registry.calls name).1)) =
          pure (ownLines library) := by
      rw [registered]
      exact plain.expandLines _ _
    simp [own]

private theorem preludeLine_eq (name : String) :
    Stage.preludeLine name = "#include ".toList ++ '"' :: (name.toList ++ ['"']) := by
  simp only [Stage.preludeLine, String.toList_append]
  rfl

private theorem trim_quoted (text : Text) :
    trim ('"' :: (text ++ ['"'])) = '"' :: (text ++ ['"']) := by
  have mark : isBlank '"' = false := rfl
  simp [trim, trimStart, trimEnd, mark]

private theorem ofLine?_include (rest : Text) :
    Directive.ofLine? ("#include ".toList ++ rest) = some ⟨"include", trim rest⟩ := by
  have space : trim (' ' :: rest) = trim rest := rfl
  rw [← space]
  rfl

/-- A quoted text without newlines is no comment, whatever it is. -/
theorem quoted_code {text : Text} (unquoted : '"' ∉ text) (single : '\n' ∉ text) :
    CommentState.quoted.emitted text = text ∧ CommentState.quoted.after text = .quoted := by
  induction text with
  | nil => exact ⟨rfl, rfl⟩
  | cons c rest ih =>
    rw [List.mem_cons, not_or] at unquoted single
    have stays : CommentState.quoted.next c = .quoted := by
      simp [CommentState.next, Ne.symm unquoted.1, Ne.symm single.1]
    obtain ⟨same, ends⟩ := ih unquoted.2 single.2
    refine ⟨?_, ?_⟩
    · rw [CommentState.emitted, stays, same]
      rfl
    · rw [CommentState.after, List.foldl_cons, stays]
      exact ends

namespace Quotable

variable {name : String}

theorem asks (quotable : Quotable name) :
    LineKind.ofLine (Stage.preludeLine name) = .splice name := by
  have named : name? ('"' :: (name.toList ++ ['"'])) = some name := by
    simp [name?, splitAt?_append_cons quotable.unquoted, quotable.trimmed, quotable.nonempty,
      Text.string]
  rw [LineKind.ofLine, preludeLine_eq, ofLine?_include, trim_quoted]
  simp only [trim_quoted, named]

theorem single_line (quotable : Quotable name) : '\n' ∉ Stage.preludeLine name := by
  simp [preludeLine_eq, quotable.single]

theorem dropReturn_line (name : String) :
    dropReturn (Stage.preludeLine name) = Stage.preludeLine name := by
  have last : (Stage.preludeLine name).getLast? = some '"' := by
    rw [preludeLine_eq, ← List.cons_append, ← List.append_assoc, List.getLast?_concat]
  rw [dropReturn, last, if_neg (by decide)]

theorem afterLine (quotable : Quotable name) :
    CommentState.code.afterLine (Stage.preludeLine name) = .code := by
  obtain ⟨_, ends⟩ := quoted_code quotable.unquoted quotable.single
  have opened (rest : Text) : CommentState.code.after ("#include ".toList ++ '"' :: rest) =
      CommentState.quoted.after rest := rfl
  rw [CommentState.afterLine, preludeLine_eq, opened, CommentState.after_append, ends]
  rfl

theorem stripped (quotable : Quotable name) :
    CommentState.code.stripped (Stage.preludeLine name) = Stage.preludeLine name := by
  obtain ⟨same, ends⟩ := quoted_code quotable.unquoted quotable.single
  have opened (rest : Text) : CommentState.code.stripped ("#include ".toList ++ '"' :: rest) =
      "#include ".toList ++ '"' :: CommentState.quoted.stripped rest := rfl
  rw [preludeLine_eq, opened, CommentState.stripped, CommentState.emitted_append,
    CommentState.after_append, same, ends]
  simp [CommentState.emitted, CommentState.released, CommentState.after, CommentState.next,
    CommentState.pending]

theorem linesWithCode_line (quotable : Quotable name) :
    linesWithCode (Stage.preludeLine name) =
      [(Stage.preludeLine name, Stage.preludeLine name)] := by
  have written : Stage.preludeLine name ≠ [] := by simp [preludeLine_eq]
  rw [linesWithCode, stripComments_eq, quotable.stripped, Text.lines,
    splitEvery_of_notMem quotable.single_line]
  simp [linesOfPieces, written]

theorem linesWithCode_append (quotable : Quotable name) (source : Text) :
    linesWithCode (Stage.preludeLine name ++ '\n' :: source) =
      (Stage.preludeLine name, Stage.preludeLine name) :: linesWithCode source := by
  rw [linesWithCode_append_newline, quotable.afterLine, endedWithCode, stripComments_eq,
    quotable.stripped, endedLines, splitEvery_of_notMem quotable.single_line]
  simp [dropReturn_line, linesWithCode, stripComments_eq]

end Quotable

variable {registry : Registry} {name : String} {library source : Text}

/-- Asking for a text changes nothing but the count of calls. -/
theorem asked_eq (name : String) (registry : Registry) :
    { registry with calls := (registry.get? name).2.calls } = (registry.get? name).2 := by
  rw [Registry.get?]
  cases registry.providers[name]? <;> rfl

/-- The include line of a registered text expands to the text. -/
theorem value_expand_line (quotable : Quotable name)
    (registered : (registry.get? name).1 = some library) (plain : Plain library) :
    (expand (Stage.preludeLine name) registry).value =
      (resolved library, (registry.get? name).2) := by
  have ends : expandLines registry.providers [] [] = pure [] := by rw [expandLines]
  have spliced := expandLines_splice (Stage.preludeLine name) registered plain
    quotable.asks ends
  rw [List.append_nil] at spliced
  rw [expand, quotable.linesWithCode_line, Logged.value_bind, spliced]
  exact congrArg (Prod.mk _) (asked_eq name registry)

/-- In front of a source, the text of an include line comes before the source's own lines. -/
theorem value_expand_line_append (quotable : Quotable name)
    (registered : (registry.get? name).1 = some library) (plain : Plain library)
    (follows : Plain source) :
    (expand (Stage.preludeLine name ++ '\n' :: source) registry).value =
      (joinLines (ownLines library ++ ownLines source), (registry.get? name).2) := by
  have spliced := expandLines_splice (Stage.preludeLine name) registered plain
    quotable.asks (follows.expandLines registry.providers [])
  rw [expand, quotable.linesWithCode_append, Logged.value_bind, spliced]
  exact congrArg (Prod.mk _) (asked_eq name registry)

end ShaderPipeline.Include
