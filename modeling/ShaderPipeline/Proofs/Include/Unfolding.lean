import ShaderPipeline.Proofs.Include.Splicing
import ShaderPipeline.Proofs.Text.Stripping

/-! Expansion as a relation between the lines of a text and the lines that are kept of it and of the
texts it includes, each with the code it has in its own text. -/

namespace ShaderPipeline.Include

open Text

/-- What keeps an include line inside `chain` from being spliced. -/
inductive Problem.At (providers : Providers) (chain : List String) (line code : Text) :
    Problem → Prop
  | malformed (asks : LineKind.ofLine code = .malformed) :
      At providers chain line code (.malformed (trim line))
  | recursive {name : String} (asks : LineKind.ofLine code = .splice name) (active : name ∈ chain) :
      At providers chain line code (.recursive name chain)
  | missing {name : String} (asks : LineKind.ofLine code = .splice name) (idle : name ∉ chain)
      (absent : providers[name]? = none) : At providers chain line code (.missing name)

theorem Problem.At.not_plain {providers : Providers} {chain : List String} {line code : Text}
    {problem : Problem} (here : problem.At providers chain line code) :
    LineKind.ofLine code ≠ .plain := by
  cases here <;> simp [*]

/-- Every include that is reached from the lines names a fixed text, or has an admitted problem. The
last index lists the lines that are kept, with the markers of problems among them. -/
inductive Unfolds (admits : Problem → Prop) (providers : Providers) :
    List String → List (Text × Text) → List (Text × Text) → Prop
  | nil {chain : List String} : Unfolds admits providers chain [] []
  | keep {chain : List String} {line code : Text} {rest kept : List (Text × Text)}
      (plain : LineKind.ofLine code = .plain)
      (follows : Unfolds admits providers chain rest kept) :
      Unfolds admits providers chain ((line, code) :: rest) ((line, code) :: kept)
  | mark {chain : List String} {line code : Text} {problem : Problem}
      {rest kept : List (Text × Text)} (here : problem.At providers chain line code)
      (admitted : admits problem) (follows : Unfolds admits providers chain rest kept) :
      Unfolds admits providers chain ((line, code) :: rest)
        ((problem.marker, stripComments problem.marker) :: kept)
  | splice {chain : List String} {line code text : Text} {name : String}
      {inner rest kept : List (Text × Text)} (asks : LineKind.ofLine code = .splice name)
      (idle : name ∉ chain) (found : providers[name]? = some (.fixed text))
      (inside : Unfolds admits providers (chain ++ [name]) (linesWithCode text) inner)
      (follows : Unfolds admits providers chain rest kept) :
      Unfolds admits providers chain ((line, code) :: rest) (inner ++ kept)

namespace Unfolds

variable {admits : Problem → Prop} {providers : Providers} {chain : List String}
  {pairs kept : List (Text × Text)}

theorem of_plain (plain : ∀ pair ∈ pairs, LineKind.ofLine pair.2 = .plain) :
    Unfolds admits providers chain pairs pairs := by
  induction pairs with
  | nil => exact .nil
  | cons pair rest ih =>
    obtain ⟨here, others⟩ := List.forall_mem_cons.mp plain
    exact .keep here (ih others)

/-- The kept lines are those that expansion answers, however often texts were asked for. -/
theorem value_expandLines (unfolds : Unfolds admits providers chain pairs kept)
    (calls : CallCounts) :
    ((expandLines providers chain pairs).run calls).value.1 = kept.map Prod.fst := by
  induction unfolds generalizing calls with
  | nil => rw [expandLines]; rfl
  | keep plain follows ih =>
    rw [expandLines, plain]
    simp [ih]
  | mark here admitted follows ih =>
    rw [expandLines]
    cases here with
    | malformed asks => simp [asks, Expanding.mark, ih]
    | recursive asks active => simp [asks, active, Expanding.mark, ih]
    | missing asks idle absent =>
      simp only [asks, idle, ↓reduceDIte]
      split
      next => simp [Expanding.mark, ih]
      next provider found => rw [absent] at found; cases found
  | @splice chain line code text name inner rest kept asks idle found inside follows ihInside ih =>
    rw [expandLines, asks]
    simp only [idle, ↓reduceDIte]
    split
    next missing => rw [found] at missing; cases missing
    next provider same =>
      obtain rfl := Option.some.inj (same.symm.trans found)
      have inner := ihInside (CallCounts.ask calls name).2
      simp [Provider.fixed, inner, ih]

theorem value_expand {text : Text} {registry : Registry}
    (unfolds : Unfolds admits registry.providers [] (linesWithCode text) kept) :
    (expand text registry).value.1 = joinLines (kept.map Prod.fst) := by
  rw [expand, Logged.value_bind]
  exact congrArg joinLines (unfolds.value_expandLines registry.calls)

end Unfolds

/-! ### What the kept lines are -/

private theorem name?_subset {argument : Text} {name : String}
    (named : name? argument = some name) :
    name.toList ⊆ argument := by
  have inside {closing : Char} {inner : Text} (found : ((splitAt? closing inner).bind fun pair =>
      if (trim pair.1).isEmpty then none else some (trim pair.1).string) = some name) :
      name.toList ⊆ inner := by
    obtain ⟨⟨before, after⟩, cut, found⟩ := Option.bind_eq_some_iff.mp found
    obtain ⟨same, _⟩ := splitAt?_eq_some cut
    split at found
    · cases found
    · cases found
      intro c member
      rw [same]
      exact List.mem_append_left _ (trim_subset before (by simpa [Text.string] using member))
  simp only [name?, Option.bind_eq_bind] at named
  split at named
  · exact fun c member => List.mem_cons_of_mem _ (inside named member)
  · exact fun c member => List.mem_cons_of_mem _ (inside named member)
  · cases named

theorem LineKind.exists_argument {code : Text} {name : String} (asks : ofLine code = .splice name) :
    ∃ argument, Directive.ofLine? code = some ⟨"include", argument⟩ ∧
      name? (trim argument) = some name := by
  rw [ofLine] at asks
  split at asks
  next argument read =>
    split at asks
    next found named =>
      cases asks
      exact ⟨argument, read, named⟩
    next => cases asks
  next => cases asks

theorem LineKind.name_subset {code : Text} {name : String} (asks : ofLine code = .splice name) :
    name.toList ⊆ code := by
  obtain ⟨argument, read, named⟩ := exists_argument asks
  exact fun c member =>
    Directive.argument_subset read (trim_subset argument (name?_subset named member))

/-- A line that the two texts show alike is one kind of line in both. -/
theorem LineKind.ofLine_congr {first second : Text} (same : trim first = trim second) :
    ofLine first = ofLine second := by
  rw [ofLine, ofLine, ← Directive.ofLine?_trim first, same, Directive.ofLine?_trim]

/-- The words that a marker starts with. -/
def Problem.phrase : Problem → String
  | .malformed _ => "#error Malformed include directive: "
  | .recursive _ _ => "#error Recursive include: "
  | .missing _ => "#error Unable to locate include: "

/-- What a marker takes from the line in whose place it stands. -/
def Problem.subject : Problem → Text
  | .malformed line => line
  | .recursive name _ => name.toList
  | .missing name => name.toList

theorem Problem.marker_eq (problem : Problem) :
    problem.marker = problem.phrase.toList ++ problem.subject := by
  cases problem with
  | malformed line => rfl
  | recursive name chain => exact String.toList_append
  | missing name => exact String.toList_append

theorem Problem.At.single {providers : Providers} {chain : List String} {line code : Text}
    {problem : Problem} (here : problem.At providers chain line code) (single : '\n' ∉ line)
    (singleCode : '\n' ∉ code) : '\n' ∉ problem.marker := by
  have phrase : '\n' ∉ problem.phrase.toList := by
    cases problem <;> rw [Problem.phrase] <;> decide +kernel
  have subject : '\n' ∉ problem.subject := by
    cases here with
    | malformed asks => exact fun member => single (trim_subset line member)
    | recursive asks active => exact fun member => singleCode (LineKind.name_subset asks member)
    | missing asks idle absent => exact fun member => singleCode (LineKind.name_subset asks member)
  rw [Problem.marker_eq, List.mem_append]
  exact not_or.mpr ⟨phrase, subject⟩

/-- A marker is an error line, whatever stands in it. -/
theorem plain_marker (problem : Problem) :
    LineKind.ofLine (stripComments problem.marker) = .plain := by
  have begins : "#error ".toList <+: problem.phrase.toList := by
    cases problem <;> rw [Problem.phrase] <;> decide +kernel
  obtain ⟨words, phrase⟩ := begins
  have code : stripComments problem.marker =
      "#error ".toList ++ stripComments (words ++ problem.subject) := by
    rw [Problem.marker_eq, ← phrase, List.append_assoc]
    rfl
  have read (argument : Text) :
      Directive.ofLine? ("#error ".toList ++ argument) = some ⟨"error", trim argument⟩ := by
    have space : trim (' ' :: argument) = trim argument := rfl
    rw [← space]
    rfl
  rw [LineKind.ofLine, code, read]
  rfl

theorem single_linesWithCode (text : Text) :
    ∀ pair ∈ linesWithCode text, '\n' ∉ pair.1 ∧ '\n' ∉ pair.2 := by
  rintro ⟨line, code⟩ member
  obtain ⟨left, right⟩ := List.of_mem_zip member
  exact ⟨notMem_of_mem_lines left, notMem_of_mem_lines right⟩

theorem single_stripComments {text : Text} (single : '\n' ∉ text) : '\n' ∉ stripComments text := by
  rw [← List.count_eq_zero, count_stripComments]
  exact List.count_eq_zero.mpr single

namespace Unfolds

variable {admits : Problem → Prop} {providers : Providers} {chain : List String}
  {pairs kept : List (Text × Text)}

/-- Every kept line is a single line. -/
theorem single (unfolds : Unfolds admits providers chain pairs kept)
    (single : ∀ pair ∈ pairs, '\n' ∉ pair.1 ∧ '\n' ∉ pair.2) :
    ∀ pair ∈ kept, '\n' ∉ pair.1 ∧ '\n' ∉ pair.2 := by
  induction unfolds with
  | nil => exact single
  | keep plain follows ih =>
    obtain ⟨here, others⟩ := List.forall_mem_cons.mp single
    exact List.forall_mem_cons.mpr ⟨here, ih others⟩
  | mark here admitted follows ih =>
    obtain ⟨⟨line, code⟩, others⟩ := List.forall_mem_cons.mp single
    have marker := here.single line code
    exact List.forall_mem_cons.mpr ⟨⟨marker, single_stripComments marker⟩, ih others⟩
  | splice asks idle found inside follows ihInside ih =>
    obtain ⟨_, others⟩ := List.forall_mem_cons.mp single
    exact List.forall_mem_append.mpr ⟨ihInside (single_linesWithCode _), ih others⟩

theorem plain (unfolds : Unfolds admits providers chain pairs kept) :
    ∀ pair ∈ kept, LineKind.ofLine pair.2 = .plain := by
  induction unfolds with
  | nil => simp
  | keep plain follows ih => exact List.forall_mem_cons.mpr ⟨plain, ih⟩
  | @mark _ _ _ problem _ _ here admitted follows ih =>
    exact List.forall_mem_cons.mpr ⟨plain_marker problem, ih⟩
  | splice asks idle found inside follows ihInside ih =>
    exact List.forall_mem_append.mpr ⟨ihInside, ih⟩

end Unfolds

end ShaderPipeline.Include
