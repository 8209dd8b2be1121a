import ShaderPipeline.Proofs.Include.Seams

/-! Markers of includes that are not registered. A marker stands for the include line among the
expanded lines, and names the include without its quotes, so that of the name only what is code is
reported. -/

namespace ShaderPipeline

namespace Text

private theorem stripComments_sublist (text : Text) : (stripComments text).Sublist text :=
  CommentState.stripped_sublist .code text

private theorem getLast?_trim (text : Text) : ∀ c ∈ (trim text).getLast?, isBlank c = false := by
  intro c last
  rw [trim, trimEnd, List.getLast?_reverse, Option.mem_def] at last
  have first := List.head?_dropWhile_not isBlank (trimStart text).reverse
  rw [last] at first
  simpa using first

theorem joinLines_cons (line : Text) {rest : List Text} (more : rest ≠ []) :
    joinLines (line :: rest) = line ++ '\n' :: joinLines rest := by
  have joined := joinLines_append (List.cons_ne_nil line []) more
  rwa [joinLines_singleton] at joined

theorem exists_splitEvery_joinLines {line : Text} (single : '\n' ∉ line) (rest : List Text) :
    ∃ pieces, splitEvery '\n' (joinLines (line :: rest)) = line :: pieces := by
  by_cases last : rest = []
  · rw [last, joinLines_singleton, splitEvery_of_notMem single]
    exact ⟨[], rfl⟩
  · rw [joinLines_cons line last, splitEvery_append_cons, splitEvery_of_notMem single]
    exact ⟨_, rfl⟩

end Text

namespace Include

open Text

/-- The first line of a text, if it has code. -/
theorem exists_pairsFrom_cons {state : CommentState} {piece : Text}
    (code : state.stripped piece ≠ []) (rest : List Text) :
    ∃ line own others, pairsFrom state (piece :: rest) = (line, own) :: others ∧
      trim own = trim (state.stripped piece) := by
  cases rest with
  | nil => exact ⟨_, _, _, by rw [pairsFrom, if_neg (by simpa using code)], rfl⟩
  | cons next more => exact ⟨_, _, _, rfl, trim_dropReturn _⟩

/-- Lines of which the last one is ended by a newline, before further lines. -/
theorem pairsFrom_append (state : CommentState) (before : List Text) {rest : List Text}
    (more : rest ≠ []) :
    pairsFrom state (before ++ rest) =
      endedFrom state before ++ pairsFrom (state.afterLines before) rest := by
  induction before generalizing state with
  | nil => rfl
  | cons line others ih =>
    obtain ⟨next, tail, same⟩ := List.exists_cons_of_ne_nil
      (show others ++ rest ≠ [] by simp [more])
    have follows := ih (state.afterLine line)
    rw [same] at follows
    rw [List.cons_append, same, pairsFrom, follows]
    rfl

/-! ### Expansion of lines in a row -/

/-- What expansion makes of lines, and the calls that it has made. -/
def expansion (providers : Providers) (pairs : List (Text × Text)) (calls : CallCounts) :
    List Text × CallCounts :=
  ((expandLines providers [] pairs).run calls).value

private theorem expandLines_append (providers : Providers) (chain : List String)
    (first second : List (Text × Text)) :
    expandLines providers chain (first ++ second) = (do
      let here ← expandLines providers chain first
      return here ++ (← expandLines providers chain second)) := by
  induction first with
  | nil => simp [expandLines]
  | cons pair rest ih =>
    rw [List.cons_append, expandLines, expandLines, ih]
    simp only [bind_assoc, pure_bind, List.append_assoc]

theorem expansion_append (providers : Providers) (first second : List (Text × Text))
    (calls : CallCounts) :
    expansion providers (first ++ second) calls =
      let here := expansion providers first calls
      let rest := expansion providers second here.2
      (here.1 ++ rest.1, rest.2) := by
  rw [expansion, expandLines_append]
  rfl

theorem expansion_plain (providers : Providers) {line code : Text}
    (plain : LineKind.ofLine code = .plain) (rest : List (Text × Text)) (calls : CallCounts) :
    expansion providers ((line, code) :: rest) calls =
      (line :: (expansion providers rest calls).1, (expansion providers rest calls).2) := by
  rw [expansion, expandLines, plain]
  rfl

theorem expansion_missing {providers : Providers} {name : String}
    (absent : providers[name]? = none) (line : Text) {code : Text}
    (asks : LineKind.ofLine code = .splice name) (rest : List (Text × Text)) (calls : CallCounts) :
    expansion providers ((line, code) :: rest) calls =
      (missingMarker name :: (expansion providers rest calls).1,
        (expansion providers rest calls).2) := by
  rw [expansion, expandLines, asks]
  simp only [List.not_mem_nil, ↓reduceDIte]
  split
  next => rfl
  next provider found => cases absent.symm.trans found

theorem expansion_nil (providers : Providers) (calls : CallCounts) :
    expansion providers [] calls = ([], calls) := by
  rw [expansion, expandLines]
  rfl

theorem value_expand_expansion (text : Text) (registry : Registry) :
    (expand text registry).value =
      let made := expansion registry.providers (linesWithCode text) registry.calls
      (joinLines made.1, { registry with calls := made.2 }) := rfl

/-! ### The marker -/

variable (name : String)

private theorem missingMarker_eq :
    missingMarker name = "#error Unable to locate include: ".toList ++ name.toList :=
  Problem.marker_eq (.missing name)

theorem stripped_missingMarker :
    CommentState.code.stripped (missingMarker name) =
      "#error Unable to locate include: ".toList ++ stripComments name.toList := by
  rw [missingMarker_eq]
  rfl

theorem afterLine_missingMarker :
    CommentState.code.afterLine (missingMarker name) = CommentState.code.afterLine name.toList := by
  rw [missingMarker_eq]
  rfl

theorem single_missingMarker {name : String} (single : '\n' ∉ name.toList) :
    '\n' ∉ missingMarker name := by
  rw [missingMarker_eq, List.mem_append]
  exact not_or.mpr ⟨by decide, single⟩

/-- The report that the pass makes of a marker: the name without comments. -/
def missingReport (name : String) : String :=
  (trim ("Unable to locate include: ".toList ++ stripComments name.toList)).string

private theorem toList_missingReport : (missingReport name).toList =
    trim ("Unable to locate include: ".toList ++ stripComments name.toList) :=
  String.toList_ofList

theorem ofLine?_missingMarker :
    Directive.ofLine? (CommentState.code.stripped (missingMarker name)) =
      some ⟨"error", (missingReport name).toList⟩ := by
  rw [stripped_missingMarker, toList_missingReport]
  rfl

/-! ### The names of includes -/

private theorem name?_eq_trim {argument : Text} {name : String}
    (named : name? argument = some name) :
    name.toList ≠ [] ∧ ∃ inside, name.toList = trim inside := by
  have inside {closing : Char} {inner : Text} (found : ((splitAt? closing inner).bind fun pair =>
      if (trim pair.1).isEmpty then none else some (trim pair.1).string) = some name) :
      name.toList ≠ [] ∧ ∃ inside, name.toList = trim inside := by
    obtain ⟨⟨before, after⟩, _, found⟩ := Option.bind_eq_some_iff.mp found
    split at found
    next => cases found
    next filled =>
      cases found
      exact ⟨by simpa [Text.string] using filled, before, by simp [Text.string]⟩
  simp only [name?, Option.bind_eq_bind] at named
  split at named
  · exact inside named
  · exact inside named
  · cases named

/-- A line of a source that asks for an include. -/
structure Asks (line : Text) (name : String) : Prop where
  single : '\n' ∉ line
  splice : LineKind.ofLine (CommentState.code.stripped line) = .splice name

namespace Asks

variable {line : Text} {name : String}

theorem code_ne_nil (asks : Asks line name) : CommentState.code.stripped line ≠ [] := by
  intro empty
  have splice := asks.splice
  rw [empty] at splice
  cases splice

/-- A name has no newline, and no blank ends it. -/
theorem whole (asks : Asks line name) : Whole name.toList := by
  obtain ⟨argument, _, named⟩ := LineKind.exists_argument asks.splice
  obtain ⟨filled, inside, same⟩ := name?_eq_trim named
  refine ⟨fun member => ?_, filled, ?_⟩
  · have code : '\n' ∈ stripComments line := LineKind.name_subset asks.splice member
    exact single_stripComments asks.single code
  · rw [same]
    exact fun c => getLast?_trim inside c

end Asks

/-- Behind a phrase, a name stands in full if and only if it is its own code. -/
theorem trim_append_code_eq_iff {phrase name : Text} {first : Char}
    (begins : phrase.head? = some first) (solid : isBlank first = false) (whole : Whole name) :
    trim (phrase ++ stripComments name) = phrase ++ name ↔ stripComments name = name := by
  constructor
  · intro same
    obtain ⟨lead, trail, parts, _⟩ := exists_trim (phrase ++ stripComments name)
    have lengths := congrArg List.length parts
    simp only [same, List.length_append] at lengths
    exact (stripComments_sublist name).eq_of_length_le (by omega)
  · intro own
    rw [own]
    refine trim_eq_self (fun c starts => ?_) fun c ends => whole.ended c ?_
    · rw [List.head?_append, begins] at starts
      cases starts
      exact solid
    · have last := List.getLast?_eq_some_getLast whole.filled
      rw [List.getLast?_append, last, Option.some_or] at ends
      rwa [last]

theorem missingReport_eq_iff {name : String} (whole : Whole name.toList) :
    missingReport name = "Unable to locate include: " ++ name ↔
      stripComments name.toList = name.toList := by
  have begins : "Unable to locate include: ".toList.head? = some 'U' := rfl
  rw [← trim_append_code_eq_iff begins rfl whole, ← toList_missingReport, ← String.toList_append]
  exact String.toList_inj.symm

end Include

end ShaderPipeline
