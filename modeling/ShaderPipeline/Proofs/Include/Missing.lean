import ShaderPipeline.Proofs.Conditional.Definedness
import ShaderPipeline.Proofs.Conditional.Composition
import ShaderPipeline.Proofs.Include.Markers

/-! Runs over texts with an include that is not registered. In the first line it ends the run with a
report of its name. In text that is not live it does nothing, unless the name opens a comment, which
hides what follows the marker. -/

namespace ShaderPipeline

namespace Preprocessor

open Conditional Include Text

variable {preprocessor : Preprocessor} {registry : Registry} {line : Text} {name : String}

private theorem value_run (preprocessor : Preprocessor) (registry : Registry) (text : Text) :
    (preprocessor.run registry text).value =
      ((preprocessor.conditionals (expand text registry).value.1).value,
        (expand text registry).value.2) := rfl

/-- A marker in the first line of a text ends the pass over it. -/
theorem conditionals_missingMarker (single : '\n' ∉ name.toList) (others : List Text) :
    (preprocessor.conditionals (joinLines (missingMarker name :: others))).value.1 =
      .error (.errorDirective preprocessor.origin 1 (missingReport name)) := by
  have one : '\n' ∉ missingMarker name := single_missingMarker single
  have code : CommentState.code.stripped (missingMarker name) ≠ [] := by
    rw [stripped_missingMarker]
    exact List.cons_ne_nil _ _
  obtain ⟨pieces, split⟩ := exists_splitEvery_joinLines one others
  obtain ⟨own, bare, rest, pairs, same⟩ := exists_pairsFrom_cons code pieces
  have read : Directive.ofLine? bare =
      some ⟨"error", (missingReport name).toList⟩ := by
    rw [← Directive.ofLine?_trim, same, Directive.ofLine?_trim, ofLine?_missingMarker]
  rw [value_conditionals, Pass.result_text, linesWithCode_eq, split, pairs]
  have ends : (Pass.line ⟨preprocessor.origin, 1⟩ own bare).result ⟨[], preprocessor.macros⟩ =
      (.error (.errorDirective preprocessor.origin 1 (missingReport name)),
        ⟨[], preprocessor.macros⟩) := by
    rw [Pass.line, read]
    refine (Pass.result_directive _ _ _ _ "error").trans ?_
    rw [string, String.ofList_toList]
    rfl
  simp only [Pass.lines, Pass.result_follow, ends]
  rfl

private theorem run_missing (asks : Asks line name) (absent : registry.providers[name]? = none)
    {source : Text} {others : List Text} (first : splitEvery '\n' source = line :: others) :
    (preprocessor.run registry source).value.1.1 =
      .error (.errorDirective preprocessor.origin 1 (missingReport name)) := by
  obtain ⟨own, code, rest, pairs, same⟩ := exists_pairsFrom_cons asks.code_ne_nil others
  have kind : LineKind.ofLine code = .splice name := by
    rw [LineKind.ofLine_congr same, asks.splice]
  have expanded : (expand source registry).value.1 =
      joinLines (missingMarker name :: (expansion registry.providers rest registry.calls).1) := by
    rw [value_expand_expansion, linesWithCode_eq, first, pairs, expansion_missing absent own kind]
  rw [value_run, expanded]
  exact conditionals_missingMarker asks.whole.single _

private theorem zip_lines_stripped (text : Text) :
    (lines text).zip (lines (CommentState.code.stripped text)) = linesWithCode text := rfl

private theorem linesWithCode_missingMarker (single : '\n' ∉ name.toList) (second : Text) :
    linesWithCode (missingMarker name ++ '\n' :: second) =
      (dropReturn (missingMarker name),
          dropReturn (CommentState.code.stripped (missingMarker name))) ::
        (lines second).zip (lines ((CommentState.code.afterLine name.toList).stripped second)) := by
  rw [linesWithCode_append_newline, afterLine_missingMarker, endedWithCode_eq,
    splitEvery_of_notMem (single_missingMarker single)]
  rfl

/-- In text that is not live a marker does nothing. -/
theorem result_line_missingMarker (place : Place) (line : Text) {state : Conditional.State}
    (dead : state.gates.live = false) :
    (Pass.line place line (dropReturn (CommentState.code.stripped (missingMarker name)))).result
      state = (.ok [], state) := by
  rw [Pass.line, Directive.ofLine?_dropReturn, ofLine?_missingMarker]
  refine (Pass.result_directive place _ state line "error").trans ?_
  rw [dead]
  rfl

/-- A marker in text that is not live counts as a line and is nothing else to the pass, unless it
opens a comment. -/
theorem result_text_missingMarker {origin : String} {first : Text}
    {state between : Conditional.State} {kept : List Text}
    (firstClosed : CommentState.code.afterLine first = .code)
    (done : (Pass.lines origin 1 (endedWithCode first)).result state = (.ok kept, between))
    (dead : between.gates.live = false) (single : '\n' ∉ name.toList)
    (closed : CommentState.code.afterLine name.toList = .code) (second : Text) :
    (Pass.text origin (first ++ '\n' :: (missingMarker name ++ '\n' :: second))).result state =
      let absent := (Pass.text origin (first ++ '\n' :: second)).result state
      (absent.1.mapError (Fault.below 1), absent.2) := by
  simp only [Pass.result_text_append, done, firstClosed, zip_lines_stripped]
  rw [linesWithCode_missingMarker single, closed, zip_lines_stripped, Pass.lines,
    Pass.result_follow, result_line_missingMarker _ _ dead]
  simp only [Pass.lines_below origin _ 1, List.nil_append]
  cases ((Pass.lines origin (1 + (endedWithCode first).length) (linesWithCode second)).result
    between).1 <;> rfl

/-- The lines before a place leave no comment open, neither as they are written nor with their
includes expanded, and the pass over them ends in text that is not live. -/
structure DeadAfter (preprocessor : Preprocessor) (registry : Registry) (before : List Text) :
    Prop where
  single : ∀ line ∈ before, '\n' ∉ line
  closed : CommentState.code.afterLines before = .code
  expandedClosed : CommentState.code.afterLine
    (joinLines (expansion registry.providers (endedFrom .code before) registry.calls).1) = .code
  dead : ∃ kept state,
    (Pass.lines preprocessor.origin 1 (endedWithCode (joinLines
        (expansion registry.providers (endedFrom .code before) registry.calls).1))).result
      ⟨[], preprocessor.macros⟩ = (.ok kept, state) ∧ state.gates.live = false

/-- With the line in the middle a run answers and leaves what it does without, but that faults
behind the line name a place one line further down. -/
def AsIfAbsent (preprocessor : Preprocessor) (registry : Registry) (before : List Text)
    (line : Text) (after : List Text) : Prop :=
  let absent := (preprocessor.run registry (joinLines (before ++ after))).value
  (preprocessor.run registry (joinLines (before ++ line :: after))).value =
    ((absent.1.1.mapError (Fault.below 1), absent.1.2), absent.2)

theorem DeadAfter.expanded_ne_nil {before : List Text}
    (dead : DeadAfter preprocessor registry before) :
    (expansion registry.providers (endedFrom .code before) registry.calls).1 ≠ [] := by
  obtain ⟨kept, state, done, off⟩ := dead.dead
  intro none
  rw [none] at done
  cases done
  cases off

/-- The line that ends a conditional. -/
def closing : Text := "#endif".toList

/-- What becomes of lines with an include in the middle that is not registered, and without it. -/
theorem value_expand_around (asks : Asks line name)
    (alone : CommentState.code.afterLine line = .code)
    (absent : registry.providers[name]? = none) {before after : List Text}
    (singleBefore : ∀ piece ∈ before, '\n' ∉ piece)
    (closed : CommentState.code.afterLines before = .code)
    (singleAfter : ∀ piece ∈ after, '\n' ∉ piece) :
    let first := expansion registry.providers (endedFrom .code before) registry.calls
    let second := expansion registry.providers (pairsFrom .code (closing :: after)) first.2
    second.1 ≠ [] ∧
      (expand (joinLines (before ++ line :: closing :: after)) registry).value =
        (joinLines (first.1 ++ missingMarker name :: second.1),
          { registry with calls := second.2 }) ∧
      (expand (joinLines (before ++ closing :: after)) registry).value =
        (joinLines (first.1 ++ second.1), { registry with calls := second.2 }) := by
  intro first second
  have endIf : '\n' ∉ closing := by decide
  have singleWithout : ∀ piece ∈ before ++ closing :: after, '\n' ∉ piece :=
    List.forall_mem_append.mpr
      ⟨singleBefore, List.forall_mem_cons.mpr ⟨endIf, singleAfter⟩⟩
  have singleWith : ∀ piece ∈ before ++ line :: closing :: after, '\n' ∉ piece :=
    List.forall_mem_append.mpr ⟨singleBefore, List.forall_mem_cons.mpr
      ⟨asks.single, List.forall_mem_cons.mpr ⟨endIf, singleAfter⟩⟩⟩
  refine ⟨?_, ?_, ?_⟩
  · obtain ⟨own, code, rest, pairs, same⟩ := exists_pairsFrom_cons
      (show CommentState.code.stripped closing ≠ [] by decide) after
    have plain : LineKind.ofLine code = .plain := by
      rw [LineKind.ofLine_congr same]
      decide
    have made : second = _ := congrArg (expansion registry.providers · first.2) pairs
    rw [made, expansion_plain _ plain]
    exact List.cons_ne_nil _ _
  · have kind : LineKind.ofLine (dropReturn (CommentState.code.stripped line)) = .splice name := by
      rw [LineKind.ofLine_congr (trim_dropReturn _), asks.splice]
    rw [value_expand_expansion, linesWithCode_eq, splitEvery_joinLines (by simp) singleWith,
      pairsFrom_append _ _ (List.cons_ne_nil _ _), closed, expansion_append, pairsFrom, alone]
    dsimp only
    rw [expansion_missing absent _ kind]
  · rw [value_expand_expansion, linesWithCode_eq, splitEvery_joinLines (by simp) singleWithout,
      pairsFrom_append _ _ (List.cons_ne_nil _ _), closed, expansion_append]

private theorem asIfAbsent_of_dead (asks : Asks line name)
    (alone : CommentState.code.afterLine line = .code)
    (absent : registry.providers[name]? = none)
    (closed : CommentState.code.afterLine name.toList = .code) {before : List Text}
    (dead : DeadAfter preprocessor registry before) {after : List Text}
    (single : ∀ piece ∈ after, '\n' ∉ piece) :
    preprocessor.AsIfAbsent registry before line (closing :: after) := by
  obtain ⟨more, present, without⟩ :=
    value_expand_around asks alone absent dead.single dead.closed single
  obtain ⟨kept, state, done, off⟩ := dead.dead
  have carried := result_text_missingMarker dead.expandedClosed done off asks.whole.single closed
  rw [AsIfAbsent]
  simp only [value_run, present, without, value_conditionals]
  rw [joinLines_append dead.expanded_ne_nil more,
    joinLines_append dead.expanded_ne_nil (List.cons_ne_nil _ _), joinLines_cons _ more, carried]

/-! ### Behind `#if 0` -/

private theorem holdsIn_zero (macros : MacroTable) : holdsIn macros ['0'] = false := by
  have settled : Macro.expand macros .nonEmpty ['0'] = ['0'] :=
    Macro.expand_of_wordless (by decide) macros .nonEmpty
  have plain : (Condition.Token.operand ['0']).Plain :=
    ⟨List.cons_ne_nil _ _, List.forall_mem_singleton.mpr rfl⟩
  have zero : isNonzeroNumber? ['0'] = some false := by decide
  rw [holdsIn, settled, Condition.evaluate_operand macros plain]
  simp only [Condition.operandHolds, zero]
  rfl

/-- The line that opens a conditional whose text is not live. -/
def opening : Text := "#if 0".toList

private theorem result_opening (origin : String) (macros : MacroTable) :
    (Pass.lines origin 1 (endedWithCode opening)).result ⟨[], macros⟩ =
      (.ok [], ⟨[false], macros⟩) := by
  have pairs : endedWithCode opening = [(opening, opening)] := by decide
  have read : Directive.ofLine? opening = some ⟨"if", ['0']⟩ := by decide
  have here : (Pass.line ⟨origin, 1⟩ opening opening).result ⟨[], macros⟩ =
      (.ok [], ⟨[false], macros⟩) := by
    rw [Pass.line, read]
    refine (Pass.result_directive _ _ _ _ "if").trans ?_
    rw [holdsIn_zero]
    rfl
  rw [pairs, Pass.lines, Pass.result_follow, here]
  rfl

private theorem expansion_opening (providers : Providers) (calls : CallCounts) :
    expansion providers (endedFrom .code [opening]) calls = ([opening], calls) := by
  have pairs : endedFrom .code [opening] = [(opening, opening)] := by decide
  have plain : LineKind.ofLine opening = .plain := by decide
  rw [pairs, expansion_plain providers plain, expansion_nil]

private theorem deadAfter_opening (preprocessor : Preprocessor) (registry : Registry) :
    DeadAfter preprocessor registry [opening] := by
  have single : ∀ piece ∈ [opening], '\n' ∉ piece := by decide
  refine ⟨single, by decide, ?_, [], ⟨[false], preprocessor.macros⟩, ?_, rfl⟩
  · rw [expansion_opening]
    rfl
  · rw [expansion_opening]
    exact result_opening _ _

/-- A text of one mark behind the conditional. -/
theorem expansion_closing (providers : Providers) (calls : CallCounts) :
    expansion providers (pairsFrom .code [closing, [';']]) calls =
      ([closing, [';']], calls) := by
  have pairs : pairsFrom .code [closing, [';']] = [(closing, closing), ([';'], [';'])] := by
    decide
  have endIf : LineKind.ofLine closing = .plain := by decide
  have mark : LineKind.ofLine [';'] = .plain := by decide
  rw [pairs, expansion_plain providers endIf, expansion_plain providers mark, expansion_nil]

private theorem result_line_closing (place : Place) (line : Text) (macros : MacroTable) :
    (Pass.line place line closing).result ⟨[false], macros⟩ = (.ok [], ⟨[], macros⟩) := by
  have read : Directive.ofLine? closing = some ⟨"endif", []⟩ := by decide
  rw [Pass.line, read]
  exact Pass.result_directive _ _ _ _ "endif"

/-- Without an include line the mark behind the conditional stays. -/
theorem result_text_mark (origin : String) (macros : MacroTable) :
    (Pass.text origin (opening ++ '\n' :: joinLines [closing, [';']])).result ⟨[], macros⟩ =
      (.ok [';'], ⟨[], macros⟩) := by
  have shut : CommentState.code.afterLine opening = .code := by decide
  have pairs : (lines (joinLines [closing, [';']])).zip
      (lines (CommentState.code.stripped (joinLines [closing, [';']]))) =
        [(closing, closing), ([';'], [';'])] := by decide
  have mark (place : Place) : (Pass.line place [';'] [';']).result ⟨[], macros⟩ =
      (.ok [[';']], ⟨[], macros⟩) := by
    have settled : Macro.expand macros .all [';'] = [';'] :=
      Macro.expand_of_wordless (by decide) macros .all
    have none : Directive.ofLine? [';'] = none := by decide
    rw [Pass.line, none]
    refine (Pass.result_keep _ _).trans ?_
    rw [settled]
    rfl
  simp only [Pass.result_text_append, result_opening, shut, pairs, Pass.lines, Pass.result_follow,
    result_line_closing, mark]
  rfl

/-- A marker that opens a comment takes the end of the conditional and the mark with it. -/
theorem result_text_swallowed (origin : String) (macros : MacroTable)
    (single : '\n' ∉ name.toList) (opened : CommentState.code.afterLine name.toList ≠ .code) :
    ((Pass.text origin (opening ++ '\n' ::
      (missingMarker name ++ '\n' :: joinLines [closing, [';']]))).result ⟨[], macros⟩).1 =
      .ok [] := by
  have shut : CommentState.code.afterLine opening = .code := by decide
  have block : CommentState.code.afterLine name.toList = .block false :=
    (CommentState.code.atStart_afterLine name.toList).resolve_left opened
  have pairs : (lines (joinLines [closing, [';']])).zip
      (lines ((CommentState.block false).stripped (joinLines [closing, [';']]))) =
        [(closing, [])] := by decide
  have hidden (place : Place) : (Pass.line place closing []).result ⟨[false], macros⟩ =
      (.ok [], ⟨[false], macros⟩) := Pass.result_keep _ _
  simp only [Pass.result_text_append, result_opening, shut, zip_lines_stripped]
  rw [linesWithCode_missingMarker single, block, pairs]
  have dead : (⟨[false], macros⟩ : Conditional.State).gates.live = false := rfl
  simp only [Pass.lines, Pass.result_follow, result_line_missingMarker _ _ dead, hidden]
  rfl

private theorem closed_of_asIfAbsent (asks : Asks line name)
    (alone : CommentState.code.afterLine line = .code) (absent : registry.providers[name]? = none)
    (same : preprocessor.AsIfAbsent registry [opening] line [closing, [';']]) :
    CommentState.code.afterLine name.toList = .code := by
  refine Decidable.byContradiction fun opened => ?_
  obtain ⟨_, present, without⟩ := value_expand_around asks alone absent
    (deadAfter_opening preprocessor registry).single (by decide)
    (show ∀ piece ∈ [[';']], '\n' ∉ piece by decide)
  rw [expansion_opening, expansion_closing] at present without
  have swallowed := result_text_swallowed preprocessor.origin preprocessor.macros
    asks.whole.single opened
  rw [AsIfAbsent] at same
  simp only [value_run, present, without, value_conditionals] at same
  have answers := congrArg (·.1.1) same
  simp only [List.singleton_append] at answers
  rw [joinLines_cons opening (List.cons_ne_nil _ _), joinLines_cons opening (List.cons_ne_nil _ _),
    joinLines_cons (missingMarker name) (List.cons_ne_nil _ _), swallowed, result_text_mark]
      at answers
  cases answers

/-- A missing include in the first line is reported, with its full name exactly if the name is its
own code. Behind `#if 0` its line counts for nothing exactly if the name opens no comment, and then
it counts for nothing wherever text is not live. -/
theorem missing_include_reported_iff (asks : Asks line name)
    (absent : registry.providers[name]? = none) (preprocessor : Preprocessor) :
    (∀ others : List Text, (preprocessor.run registry (joinLines (line :: others))).value.1.1 =
      .error (.errorDirective preprocessor.origin 1 (missingReport name))) ∧
    (missingReport name = "Unable to locate include: " ++ name ↔
      stripComments name.toList = name.toList) ∧
    (CommentState.code.afterLine line = .code →
      ((∀ after, (∀ piece ∈ after, '\n' ∉ piece) →
          preprocessor.AsIfAbsent registry [opening] line (closing :: after)) ↔
        CommentState.code.afterLine name.toList = .code) ∧
      (CommentState.code.afterLine name.toList = .code →
        ∀ before, DeadAfter preprocessor registry before →
          ∀ after, (∀ piece ∈ after, '\n' ∉ piece) →
            preprocessor.AsIfAbsent registry before line (closing :: after))) := by
  refine ⟨fun others => ?_, missingReport_eq_iff asks.whole, fun alone =>
    ⟨⟨fun same => ?_, fun closed after single => ?_⟩, fun closed before dead after single => ?_⟩⟩
  · obtain ⟨pieces, first⟩ := exists_splitEvery_joinLines asks.single others
    exact run_missing asks absent first
  · exact closed_of_asIfAbsent asks alone absent (same [[';']] (by decide))
  · exact asIfAbsent_of_dead asks alone absent closed (deadAfter_opening preprocessor registry)
      single
  · exact asIfAbsent_of_dead asks alone absent closed dead single

/-- An include line with blanks and a comment around it. -/
def shadowLine : Text := "  #include < lib/shadow.glsl > // soft".toList

private theorem asks_shadowLine : Asks shadowLine "lib/shadow.glsl" :=
  ⟨by decide, by decide +kernel⟩

/-- A preprocessor that defines nothing. -/
def bare : Preprocessor := ⟨"main", {}⟩

theorem missing_include_reported_iff_shadow :
    Asks shadowLine "lib/shadow.glsl" ∧
      (bare.run {} (joinLines [shadowLine, "void main() \x7b\x7d".toList])).value.1.1 =
        .error (.errorDirective "main" 1 "Unable to locate include: lib/shadow.glsl") ∧
      bare.AsIfAbsent {} [opening] shadowLine [closing, "#error later".toList] := by
  have absent : (({} : Registry).providers)["lib/shadow.glsl"]? = none := by decide
  obtain ⟨reported, full, around⟩ := missing_include_reported_iff asks_shadowLine absent bare
  refine ⟨asks_shadowLine, ?_, ?_⟩
  · have name := full.mpr (by decide)
    rw [reported, name]
    rfl
  · exact (around (by decide)).1.mpr (by decide +kernel) _ (by decide +kernel)

/-- The quotes keep two slashes in a name, the marker does not: the report breaks off before them.
An asterisk behind a slash hides the rest of the text. -/
theorem comment_marks_hide_missing_name :
    Asks "#include \"a//b\"".toList "a//b" ∧ Asks "#include \"a/*b\"".toList "a/*b" ∧
      CommentState.code.afterLine "#include \"a/*b\"".toList = .code ∧
      (bare.run {} "#include \"a//b\"".toList).value.1.1 =
        .error (.errorDirective "main" 1 "Unable to locate include: a") ∧
      ¬ bare.AsIfAbsent {} [opening] "#include \"a/*b\"".toList [closing, [';']] := by
  have slashes : Asks "#include \"a//b\"".toList "a//b" := ⟨by decide, by decide +kernel⟩
  have asterisk : Asks "#include \"a/*b\"".toList "a/*b" := ⟨by decide, by decide +kernel⟩
  have alone : CommentState.code.afterLine "#include \"a/*b\"".toList = .code := by decide
  have absent (name : String) : (({} : Registry).providers)[name]? = none :=
    Std.TreeMap.getElem?_emptyc
  refine ⟨slashes, asterisk, alone, ?_, fun same => ?_⟩
  · have first := splitEvery_of_notMem slashes.single
    have cut : missingReport "a//b" = "Unable to locate include: a" := by decide
    rw [run_missing slashes (absent "a//b") first, cut]
    rfl
  · have closed := closed_of_asIfAbsent asterisk alone (absent "a/*b") same
    revert closed
    decide

end Preprocessor

end ShaderPipeline
