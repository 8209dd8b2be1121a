import ShaderPipeline.Proofs.Conditional.Composition
import ShaderPipeline.Proofs.Macro.Expansion

/-! A stage after its library, which is read in a pass of its own, against one pass over an include
of the library and the stage. The two agree for every stage if and only if a newline at the end of
the library shows nothing new and a comment does not run on. -/

namespace ShaderPipeline

namespace Text

/-- Block comments of the text end in it. -/
def Closed (text : Text) : Prop := CommentState.code.afterLine text = .code

/-- Two texts that show the same, whether or not a newline follows, and that leave the same comment
open. -/
structure Steady (first second : Text) : Prop where
  shown : visible first = visible second
  ended : visible (first ++ ['\n']) = visible first
  alsoEnded : visible (second ++ ['\n']) = visible second
  comment : CommentState.code.afterLine first = CommentState.code.afterLine second

private theorem visibleFrom_nil {state : CommentState} (start : state.AtStart) :
    visibleFrom state [] = [] := by
  rw [visibleFrom, start.stripped_nil]
  rfl

private theorem visible_newline (text : Text) : visible (text ++ ['\n']) = visibleEnded text := by
  rw [visible_append_newline, visibleFrom_nil (CommentState.atStart_afterLine _ _),
    List.append_nil]

private theorem visible_joinParts (prelude : Text) {body : Text} (some : body ≠ []) :
    visible (Stage.joinParts prelude body) =
      visibleEnded prelude ++ visibleFrom (CommentState.code.afterLine prelude) body := by
  rw [Stage.joinParts]
  by_cases empty : prelude = []
  · rw [empty]
    rfl
  · simp only [List.isEmpty_iff, empty, some, ↓reduceIte]
    exact visible_append_newline prelude body

private theorem joinParts_nil (prelude : Text) : Stage.joinParts prelude [] = prelude := by
  cases prelude <;> rfl

private theorem visible_joinLines_append (first : List Text) {second : List Text}
    (some : second ≠ []) :
    visible (joinLines (first ++ second)) =
      visibleEnded (joinLines first) ++
        visibleFrom (CommentState.code.afterLine (joinLines first)) (joinLines second) := by
  by_cases empty : first = []
  · rw [empty]
    rfl
  · rw [joinLines_append empty some, visible_append_newline]

/-- After steady texts the same lines show. -/
theorem Steady.followed {prelude : Text} {kept : List Text}
    (steady : Steady prelude (joinLines kept))
    (body : List Text) :
    visible (Stage.joinParts prelude (joinLines body)) = visible (joinLines (kept ++ body)) := by
  have same : visibleEnded prelude = visibleEnded (joinLines kept) := by
    rw [← visible_newline, ← visible_newline, steady.ended, steady.alsoEnded, steady.shown]
  by_cases none : body = []
  · rw [none, List.append_nil, ← steady.shown]
    exact congrArg visible (joinParts_nil prelude)
  · rw [visible_joinLines_append kept none, ← same, ← steady.comment]
    by_cases empty : joinLines body = []
    · rw [empty, joinParts_nil, visibleFrom_nil (CommentState.atStart_afterLine _ _),
        List.append_nil, ← visible_newline, steady.ended]
    · exact visible_joinParts prelude empty

/-- An empty source, a blank one and a line that every open comment hides tell whether texts are
steady. -/
theorem Steady.of_followed {prelude : Text} {kept : List Text}
    (empty : visible (Stage.joinParts prelude (joinLines [])) = visible (joinLines (kept ++ [])))
    (blank : visible (Stage.joinParts prelude (joinLines [[]])) =
      visible (joinLines (kept ++ [[]])))
    (mark : visible (Stage.joinParts prelude (joinLines [[';']])) =
      visible (joinLines (kept ++ [[';']]))) :
    Steady prelude (joinLines kept) := by
  have shown : visible prelude = visible (joinLines kept) := by
    rwa [List.append_nil, show joinLines [] = [] from rfl, joinParts_nil] at empty
  have ended : visible prelude = visibleEnded (joinLines kept) := by
    rwa [visible_joinLines_append kept (by simp), show joinLines [[]] = [] from rfl,
      visibleFrom_nil (CommentState.atStart_afterLine _ _), List.append_nil,
      joinParts_nil] at blank
  have hides : visibleFrom (.block false) [';'] = [] := rfl
  have shows : visibleFrom .code [';'] = [[';']] := rfl
  have lengths : (visibleEnded prelude).length = (visibleEnded (joinLines kept)).length := by
    rw [length_visibleEnded, ended]
  rw [visible_joinLines_append kept (by simp), show joinLines [[';']] = [';'] from rfl,
    visible_joinParts prelude (by simp)] at mark
  have same : CommentState.code.afterLine prelude = CommentState.code.afterLine (joinLines kept) ∧
      visibleEnded prelude = visibleEnded (joinLines kept) := by
    rcases CommentState.atStart_afterLine .code prelude with first | first <;>
      rcases CommentState.atStart_afterLine .code (joinLines kept) with second | second <;>
      simp only [first, second, hides, shows, List.append_nil] at mark ⊢
    · exact ⟨trivial, List.append_cancel_right mark⟩
    · have total := congrArg List.length mark
      simp [lengths] at total
    · have total := congrArg List.length mark
      simp [lengths] at total
    · exact ⟨trivial, mark⟩
  exact ⟨shown, by rw [visible_newline, same.2, ended],
    by rw [visible_newline, ← ended, shown], same.1⟩

end Text

/-- A text that a library or a stage can be: it has no include lines, its comments and its
conditionals end in it. -/
structure Standalone (text : Text) : Prop where
  plain : Include.Plain text
  closed : Text.Closed text
  balanced : Conditional.Balanced text

instance (text : Text) : Decidable (Include.Plain text) :=
  inferInstanceAs (Decidable (∀ code ∈ Text.lines (Text.stripComments text), _))

instance (text : Text) : Decidable (Text.Closed text) := inferInstanceAs (Decidable (_ = _))

instance (text : Text) : Decidable (Conditional.Balanced text) :=
  inferInstanceAs (Decidable (_ = _))

instance (text : Text) : Decidable (Standalone text) :=
  decidable_of_iff (Include.Plain text ∧ Text.Closed text ∧ Conditional.Balanced text)
    ⟨fun ⟨plain, closed, balanced⟩ => ⟨plain, closed, balanced⟩,
      fun alone => ⟨alone.plain, alone.closed, alone.balanced⟩⟩

theorem ok_of_toOption {answer : Except ε α} {value : α} (found : answer.toOption = some value) :
    answer = .ok value := by
  cases answer with
  | ok other => exact congrArg Except.ok (Option.some.inj found)
  | error fault => cases found

/-- Both fail with one message, or both succeed and show the same lines. -/
def Agree : Except Fault Text → Except Fault Text → Prop
  | .ok first, .ok second => Text.visible first = Text.visible second
  | .error first, .error second => first.unplaced = second.unplaced
  | _, _ => False

theorem Agree.refl (answer : Except Fault Text) : Agree answer answer := by
  cases answer <;> rfl

theorem Agree.of_maps {first second : Except Fault α} {show₁ show₂ : α → Text}
    (same : first.mapError Fault.unplaced = second.mapError Fault.unplaced)
    (shown : ∀ value, Text.visible (show₁ value) = Text.visible (show₂ value)) :
    Agree (first.map show₁) (second.map show₂) := by
  cases first with
  | ok value =>
    cases second with
    | ok other =>
      cases same
      exact shown value
    | error fault => cases same
  | error fault =>
    cases second with
    | ok other => cases same
    | error other => exact Except.error.inj same

namespace Preprocessor

open Conditional

theorem result_lines_text (origin : String) (number : Nat) (macros : MacroTable)
    {text code : Text} (reads : Directive.ofLine? code = none)
    (wordless : ∀ piece ∈ Text.pieces text, piece.word? = none) :
    (Pass.lines origin number [(text, code)]).result ⟨[], macros⟩ =
      (.ok [text], ⟨[], macros⟩) := by
  rw [Pass.lines, Pass.result_follow, Pass.line, reads, Pass.result_keep,
    Macro.expand_of_wordless wordless]
  rfl

/-- Whether texts can follow a library. If it is carried out at all, no comment of it is left open,
and a newline at its end changes neither what shows of it nor the comment after it. -/
def EndsCleanly (preprocessor : Preprocessor) (library : Text) : Prop :=
  ∀ prelude, (preprocessor.conditionals (Include.resolved library)).value.1 = .ok prelude →
    Text.Closed (Include.resolved library) ∧
    ∃ ended, (preprocessor.conditionals (Include.resolved library ++ ['\n'])).value.1 = .ok ended ∧
      Text.Steady prelude ended

/-- The pass over a text from the start. -/
def carried (preprocessor : Preprocessor) (text : Text) :
    Except Fault Text × Conditional.State :=
  (Pass.text preprocessor.origin text).result ⟨[], preprocessor.macros⟩

/-- A source after a library that has a pass of its own. -/
def separately (preprocessor : Preprocessor) (library source : Text) : Except Fault Text :=
  match preprocessor.carried (Include.resolved library) with
  | (.ok prelude, after) =>
    ({ preprocessor with macros := after.macros }.carried (Include.resolved source)).1.map
      (Stage.joinParts prelude)
  | (.error fault, _) => .error fault

/-- A source and a library in one pass. -/
def together (preprocessor : Preprocessor) (library source : Text) : Except Fault Text :=
  (preprocessor.carried (Text.joinLines (Include.ownLines library ++ Include.ownLines source))).1

private theorem of_carried_ok {preprocessor : Preprocessor} {text prelude : Text}
    {after : Conditional.State}
    (done : preprocessor.carried text = (.ok prelude, after)) :
    ∃ kept, (Pass.lines preprocessor.origin 1 (Include.linesWithCode text)).result
      ⟨[], preprocessor.macros⟩ = (.ok kept, after) ∧ prelude = Text.joinLines kept := by
  rw [carried, Pass.result_text] at done
  cases run : (Pass.lines preprocessor.origin 1 (Include.linesWithCode text)).result
    ⟨[], preprocessor.macros⟩ with
  | mk answer last =>
    rw [run] at done
    cases answer with
    | ok kept =>
      cases done
      exact ⟨kept, rfl, rfl⟩
    | error fault => cases done

private theorem of_carried_error {preprocessor : Preprocessor} {text : Text} {fault : Fault}
    {after : Conditional.State} (failed : preprocessor.carried text = (.error fault, after)) :
    (Pass.lines preprocessor.origin 1 (Include.linesWithCode text)).result
      ⟨[], preprocessor.macros⟩ = (.error fault, after) := by
  rw [carried, Pass.result_text] at failed
  cases run : (Pass.lines preprocessor.origin 1 (Include.linesWithCode text)).result
    ⟨[], preprocessor.macros⟩ with
  | mk answer last =>
    rw [run] at failed
    cases answer with
    | ok kept => cases failed
    | error fault =>
      cases failed
      rfl

/-- A balanced library leaves no conditional open. -/
theorem gates_of_balanced {preprocessor : Preprocessor} {library prelude : Text}
    {after : Conditional.State} (balanced : Balanced library)
    (done : preprocessor.carried (Include.resolved library) = (.ok prelude, after)) :
    after.gates = [] := by
  obtain ⟨kept, run, _⟩ := of_carried_ok done
  have nests := nestingAfter_resolved 0 library
  rw [balanced] at nests
  refine List.eq_nil_of_length_eq_zero (Pass.length_gates_lines preprocessor.origin 1 ?_ run)
  exact nests

section

variable (preprocessor : Preprocessor) {library source : Text}

/-- Without lines of its own a library changes nothing. -/
theorem separately_of_no_library (none : Include.ownLines library = []) :
    preprocessor.separately library source = preprocessor.together library source := by
  have empty : Include.resolved library = [] := by rw [Include.resolved, none]; rfl
  have start : preprocessor.carried [] = (.ok [], ⟨[], preprocessor.macros⟩) := rfl
  rw [separately, empty, start, together, none, List.nil_append]
  change (preprocessor.carried (Include.resolved source)).1.map (Stage.joinParts []) =
    (preprocessor.carried (Include.resolved source)).1
  cases (preprocessor.carried (Include.resolved source)).1 <;> rfl

private theorem separately_of_no_source (none : Include.ownLines source = []) :
    preprocessor.separately library source = preprocessor.together library source := by
  have empty : Include.resolved source = [] := by rw [Include.resolved, none]; rfl
  rw [separately, together, none, List.append_nil, empty]
  change _ = (preprocessor.carried (Include.resolved library)).1
  cases preprocessor.carried (Include.resolved library) with
  | mk answer after =>
    cases answer with
    | ok prelude => exact congrArg Except.ok (Text.joinParts_nil prelude)
    | error fault => rfl

/-- After lines of a library the source goes on in the same pass. -/
theorem together_eq (some : Include.ownLines library ≠ []) (more : Include.ownLines source ≠ []) :
    preprocessor.together library source = (preprocessor.carried
      (Include.resolved library ++ '\n' :: Include.resolved source)).1 := by
  rw [together, Text.joinLines_append some more]
  rfl

private theorem together_of_error {fault : Fault} {after : Conditional.State}
    (some : Include.ownLines library ≠ []) (more : Include.ownLines source ≠ [])
    (failed : preprocessor.carried (Include.resolved library) = (.error fault, after)) :
    preprocessor.together library source = .error fault := by
  rw [preprocessor.together_eq some more, carried, Pass.result_text_append,
    Pass.endedWithCode_error (of_carried_error failed)]

/-- When no comment runs on, the source is carried out with the macros that the library leaves. -/
theorem together_of_ok {kept : List Text} {after : Conditional.State}
    (some : Include.ownLines library ≠ []) (more : Include.ownLines source ≠ [])
    (closed : Text.Closed (Include.resolved library))
    (ended : (Pass.lines preprocessor.origin 1
      (Include.endedWithCode (Include.resolved library))).result
        ⟨[], preprocessor.macros⟩ = (.ok kept, after)) :
    ∃ number, preprocessor.together library source =
      ((Pass.lines preprocessor.origin number
        (Include.linesWithCode (Include.resolved source))).result after).1.map
          fun body => Text.joinLines (kept ++ body) := by
  refine ⟨1 + (Include.endedWithCode (Include.resolved library)).length, ?_⟩
  rw [preprocessor.together_eq some more, carried, Pass.result_text_append, ended, closed]
  rfl

private theorem separately_of_ok {prelude : Text} {after : Conditional.State}
    (shut : after.gates = [])
    (done : preprocessor.carried (Include.resolved library) = (.ok prelude, after)) :
    preprocessor.separately library source =
      ((Pass.lines preprocessor.origin 1
        (Include.linesWithCode (Include.resolved source))).result after).1.map
          fun body => Stage.joinParts prelude (Text.joinLines body) := by
  obtain ⟨gates, macros⟩ := after
  subst shut
  rw [separately, done]
  simp only [carried, Pass.result_text]
  cases ((Pass.lines preprocessor.origin 1
    (Include.linesWithCode (Include.resolved source))).result ⟨[], macros⟩).1 <;> rfl

/-- The two ways agree on a source when the library ends cleanly, whatever the source is. -/
theorem agree_of_endsCleanly (balanced : Balanced library)
    (clean : preprocessor.EndsCleanly library) :
    Agree (preprocessor.separately library source) (preprocessor.together library source) := by
  by_cases some : Include.ownLines library = []
  · rw [preprocessor.separately_of_no_library some]
    exact .refl _
  by_cases more : Include.ownLines source = []
  · rw [preprocessor.separately_of_no_source more]
    exact .refl _
  cases done : preprocessor.carried (Include.resolved library) with
  | mk answer after =>
    cases answer with
    | error fault =>
      rw [preprocessor.together_of_error some more done, separately, done]
      exact .refl _
    | ok prelude =>
      obtain ⟨closed, ended, endedRun, steady⟩ := clean prelude (congrArg Prod.fst done)
      obtain ⟨kept, run, _⟩ := of_carried_ok done
      obtain ⟨keptEnded, runEnded⟩ := Pass.endedWithCode_ok run
      have same : ended = Text.joinLines keptEnded := by
        rw [value_conditionals, Pass.result_text_newline, runEnded] at endedRun
        exact (Except.ok.inj endedRun).symm
      obtain ⟨number, joint⟩ := preprocessor.together_of_ok some more closed runEnded
      rw [preprocessor.separately_of_ok (gates_of_balanced balanced done) done, joint]
      have renumbered := congrArg Prod.fst (Pass.lines_renumber preprocessor.origin 1 number
        (Include.linesWithCode (Include.resolved source)) after)
      simp only [Pass.unplaced] at renumbered
      rw [same] at steady
      exact .of_maps renumbered fun body => steady.followed body

/-- What the two ways make of a source of one line of text, after a library. -/
theorem agree_text {prelude : Text} {after : Conditional.State} {kept : List Text}
    (agree : Agree (preprocessor.separately library source)
      (preprocessor.together library source))
    (some : Include.ownLines library ≠ []) (more : Include.ownLines source ≠ [])
    (closed : Text.Closed (Include.resolved library)) (shut : after.gates = [])
    (done : preprocessor.carried (Include.resolved library) = (.ok prelude, after))
    (ended : (Pass.lines preprocessor.origin 1
      (Include.endedWithCode (Include.resolved library))).result
        ⟨[], preprocessor.macros⟩ = (.ok kept, after)) {body : List Text}
    (carries : ∀ number, (Pass.lines preprocessor.origin number
      (Include.linesWithCode (Include.resolved source))).result after = (.ok body, after)) :
    Text.visible (Stage.joinParts prelude (Text.joinLines body)) =
      Text.visible (Text.joinLines (kept ++ body)) := by
  obtain ⟨number, joint⟩ := preprocessor.together_of_ok some more closed ended
  rw [preprocessor.separately_of_ok shut done, joint, carries, carries] at agree
  exact agree

/-- Nothing runs on from a library without lines of its own. -/
theorem endsCleanly_of_no_library (none : Include.ownLines library = []) :
    preprocessor.EndsCleanly library := by
  intro prelude answered
  have empty : Include.resolved library = [] := by rw [Include.resolved, none]; rfl
  have line : Include.endedWithCode [] = [([], [])] := rfl
  rw [empty] at answered ⊢
  cases answered
  refine ⟨rfl, [], ?_, ⟨rfl, rfl, rfl, rfl⟩⟩
  rw [value_conditionals, Pass.result_text_newline, line,
    result_lines_text preprocessor.origin 1 preprocessor.macros rfl (by decide)]
  rfl

/-- A comment that runs on from a library hides an error line, which fails on its own. -/
theorem closed_of_agree {prelude : Text} {macros : MacroTable} {ended : List Text}
    (agree : Agree (preprocessor.separately library "#error x".toList)
      (preprocessor.together library "#error x".toList))
    (some : Include.ownLines library ≠ [])
    (done : preprocessor.carried (Include.resolved library) = (.ok prelude, ⟨[], macros⟩))
    (run : (Pass.lines preprocessor.origin 1
      (Include.endedWithCode (Include.resolved library))).result
        ⟨[], preprocessor.macros⟩ = (.ok ended, ⟨[], macros⟩)) :
    Text.Closed (Include.resolved library) := by
  by_cases closed : Text.Closed (Include.resolved library)
  · exact closed
  have opened := (Text.CommentState.atStart_afterLine _ _).resolve_left closed
  have fails : preprocessor.separately library "#error x".toList =
      .error (.errorDirective preprocessor.origin 1 "x") := by
    rw [preprocessor.separately_of_ok rfl done]
    rfl
  have passes : preprocessor.together library "#error x".toList =
      .ok (Text.joinLines (ended ++ [])) := by
    rw [preprocessor.together_eq some (by decide), carried, Pass.result_text_append, run, opened]
    rfl
  rw [fails, passes] at agree
  exact agree.elim

/-- The sources that tell whether a library ends cleanly: an error line, blank lines and a line
that every comment hides. -/
theorem endsCleanly_of_agree (balanced : Balanced library)
    (agree : ∀ source, Standalone source →
      Agree (preprocessor.separately library source) (preprocessor.together library source)) :
    preprocessor.EndsCleanly library := by
  by_cases some : Include.ownLines library = []
  · exact preprocessor.endsCleanly_of_no_library some
  intro prelude answered
  cases done : preprocessor.carried (Include.resolved library) with
  | mk answer after =>
    obtain rfl : answer = .ok prelude := (congrArg Prod.fst done).symm.trans answered
    have shut := gates_of_balanced balanced done
    obtain ⟨kept, run, _⟩ := of_carried_ok done
    obtain ⟨ended, runEnded⟩ := Pass.endedWithCode_ok run
    obtain ⟨gates, macros⟩ := after
    subst shut
    have closed := preprocessor.closed_of_agree
      (agree "#error x".toList (by decide +kernel)) some done runEnded
    have empty := preprocessor.agree_text (agree "\n".toList (by decide +kernel)) some (by decide)
      closed rfl done runEnded fun _ => rfl
    have blank := preprocessor.agree_text (agree "\n\n".toList (by decide +kernel)) some
      (by decide) closed rfl done runEnded fun number =>
        result_lines_text preprocessor.origin number macros rfl (by decide)
    have mark := preprocessor.agree_text (agree ";".toList (by decide +kernel)) some (by decide)
      closed rfl done runEnded fun number =>
        result_lines_text preprocessor.origin number macros rfl (by decide)
    refine ⟨closed, Text.joinLines ended, ?_, .of_followed empty blank mark⟩
    rw [value_conditionals, Pass.result_text_newline, runEnded]
    rfl

end

end Preprocessor

namespace Stage

open Preprocessor

variable {registry : Registry} {name : String} {library : Text}

private theorem value_preprocess (stage : Stage) (defines : FeatureSet)
    (quotable : Include.Quotable name) (registered : (registry.get? name).1 = some library)
    (plain : Include.Plain library) (own : Include.Plain stage.source) :
    (stage.preprocess defines registry (some name)).value.1 =
      (stage.preprocessor defines).separately library stage.source := by
  rw [preprocess]
  simp only [Logged.value_bind, Preprocessor.run,
    Include.value_expand_line quotable registered plain, value_conditionals, Logged.value_pure]
  rw [separately, carried]
  cases (Conditional.Pass.text (stage.preprocessor defines).origin
    (Include.resolved library)).result ⟨[], (stage.preprocessor defines).macros⟩ with
  | mk answer after =>
    cases answer with
    | error fault => rfl
    | ok prelude =>
      simp only [Logged.value_bind, Include.value_expand own, value_conditionals, carried,
        Logged.value_pure]

private theorem value_run_prelude (preprocessor : Preprocessor) {source : Text}
    (quotable : Include.Quotable name) (registered : (registry.get? name).1 = some library)
    (plain : Include.Plain library) (own : Include.Plain source) :
    (preprocessor.run registry (preludeLine name ++ '\n' :: source)).value.1.1 =
      preprocessor.together library source := by
  rw [Preprocessor.run, Logged.value_bind,
    Include.value_expand_line_append quotable registered plain own]
  rfl

/-- A library changes nothing about the stages that follow it if and only if it ends cleanly. -/
theorem prelude_agrees_iff (stage : Stage) (defines : FeatureSet)
    (quotable : Include.Quotable name) (registered : (registry.get? name).1 = some library)
    (alone : Standalone library) :
    (∀ source, Standalone source →
      Agree ({ stage with source }.preprocess defines registry (some name)).value.1
        ((stage.preprocessor defines).run registry
          (preludeLine name ++ '\n' :: source)).value.1.1) ↔
      (stage.preprocessor defines).EndsCleanly library := by
  have same (source : Text) : { stage with source }.preprocessor defines =
    stage.preprocessor defines := rfl
  constructor
  · intro agree
    refine endsCleanly_of_agree _ alone.balanced fun source own => ?_
    have agreed := agree source own
    rwa [value_preprocess { stage with source } defines quotable registered alone.plain own.plain,
      value_run_prelude _ quotable registered alone.plain own.plain] at agreed
  · intro clean source own
    rw [value_preprocess { stage with source } defines quotable registered alone.plain own.plain,
      value_run_prelude _ quotable registered alone.plain own.plain]
    exact agree_of_endsCleanly _ alone.balanced clean

/-- A registry of one library. -/
def libraryOf (library : String) : Registry := .ofTexts [("stdlib", library.toList)]

private theorem quotable_stdlib : Include.Quotable "stdlib" :=
  ⟨by decide, by decide, by decide, by decide⟩

/-- A library that ends in a comment, without a newline. -/
def light : String := "#define LIT 1\r\nfloat lit(); // light"

theorem prelude_agrees_iff_light :
    ((libraryOf light).get? "stdlib").1 = some light.toList ∧ Standalone light.toList ∧
      ∀ source, Standalone source →
        Agree ((⟨.vertex, source⟩ : Stage).preprocess {} (libraryOf light) (some "stdlib")).value.1
          (((⟨.vertex, source⟩ : Stage).preprocessor {}).run (libraryOf light)
            (preludeLine "stdlib" ++ '\n' :: source)).value.1.1 := by
  have clean : ((⟨.vertex, []⟩ : Stage).preprocessor {}).EndsCleanly light.toList := by
    intro prelude done
    have answer : (((⟨.vertex, []⟩ : Stage).preprocessor {}).conditionals
        (Include.resolved light.toList)).value.1.toOption =
          some "float lit(); // light".toList := by decide +kernel
    rw [done] at answer
    cases answer
    refine ⟨by decide +kernel, "float lit(); // light".toList,
      ok_of_toOption (by decide +kernel), ?_⟩
    exact ⟨by decide +kernel, by decide +kernel, by decide +kernel, by decide +kernel⟩
  have registered : ((libraryOf light).get? "stdlib").1 = some light.toList := by decide +kernel
  have alone : Standalone light.toList := by decide +kernel
  exact ⟨registered, alone,
    (prelude_agrees_iff ⟨.vertex, []⟩ {} quotable_stdlib registered alone).mpr clean⟩

/-- A library of one comment over two lines. -/
def helpers : String := "/* helpers\n*/\n"

/-- A stage of one line. -/
def mainOnly : Text := "void main() \x7b\x7d\n".toList

/-- The last line of the comment has no code, so the pass over the library leaves it out, and the
comment hides the stage that follows. -/
theorem prelude_hides_stage :
    ((libraryOf helpers).get? "stdlib").1 = some helpers.toList ∧
      Standalone helpers.toList ∧ Standalone mainOnly ∧
      ¬ Agree ((⟨.vertex, mainOnly⟩ : Stage).preprocess {} (libraryOf helpers)
          (some "stdlib")).value.1
        (((⟨.vertex, mainOnly⟩ : Stage).preprocessor {}).run (libraryOf helpers)
          (preludeLine "stdlib" ++ '\n' :: mainOnly)).value.1.1 := by
  have registered : ((libraryOf helpers).get? "stdlib").1 = some helpers.toList := by
    decide +kernel
  have library : Standalone helpers.toList := by decide +kernel
  have body : Standalone mainOnly := by decide +kernel
  refine ⟨registered, library, body, ?_⟩
  rw [value_preprocess _ _ quotable_stdlib registered library.plain body.plain,
    value_run_prelude _ quotable_stdlib registered library.plain body.plain]
  have hidden : ((⟨.vertex, mainOnly⟩ : Stage).preprocessor {}).separately helpers.toList mainOnly =
      .ok "/* helpers\nvoid main() \x7b\x7d".toList :=
    ok_of_toOption (by decide +kernel)
  have shown : ((⟨.vertex, mainOnly⟩ : Stage).preprocessor {}).together helpers.toList mainOnly =
      .ok "/* helpers\n*/\nvoid main() \x7b\x7d".toList :=
    ok_of_toOption (by decide +kernel)
  rw [hidden, shown]
  intro same
  have differ : Text.visible "/* helpers\nvoid main() \x7b\x7d".toList ≠
      Text.visible "/* helpers\n*/\nvoid main() \x7b\x7d".toList := by decide +kernel
  exact differ same

end Stage

end ShaderPipeline
