import ShaderPipeline.Proofs.Conditional.Results
import ShaderPipeline.Proofs.Include.Splicing
import ShaderPipeline.Proofs.Text.Directives

/-! The pass over a text of two parts. What it carries from the first part to the second is the
gates, the macro table and the number of the line. -/

namespace ShaderPipeline

/-- A fault apart from the number of its line. -/
def Fault.unplaced : Fault → Fault
  | .errorDirective origin _ message => .errorDirective origin 0 message
  | fault => fault

/-- The fault of a line that stands `count` lines further down. -/
def Fault.below (count : Nat) : Fault → Fault
  | .errorDirective origin line message => .errorDirective origin (line + count) message
  | fault => fault

@[simp] theorem Fault.unplaced_below (count : Nat) (fault : Fault) :
    (fault.below count).unplaced = fault.unplaced := by
  cases fault <;> rfl

namespace Conditional

/-! ### Open conditionals -/

/-- How many conditionals are open after a directive, unless it asks for one and none is. -/
def Command.nesting : Command → Nat → Option Nat
  | .ifDefined, depth | .ifNotDefined, depth | .ifTrue, depth => some (depth + 1)
  | .elseIf, 0 | .otherwise, 0 | .endIf, 0 => none
  | .endIf, depth + 1 => some depth
  | _, depth => some depth

/-- How many conditionals are open after the code of a line. -/
def nestingOf (depth : Nat) (code : Text) : Option Nat :=
  match Directive.ofLine? code with
  | some found => (Command.ofName found.name).nesting depth
  | none => some depth

def nestingAfter : Nat → List Text → Option Nat
  | depth, [] => some depth
  | depth, code :: rest => (nestingOf depth code).bind (nestingAfter · rest)

/-- Conditionals of the text end in it, and nothing else asks for one. -/
def Balanced (text : Text) : Prop :=
  nestingAfter 0 (Text.lines (Text.stripComments text)) = some 0

private theorem nestingOf_congr {first second : Text}
    (same : Directive.ofLine? first = Directive.ofLine? second) (depth : Nat) :
    nestingOf depth first = nestingOf depth second := by
  rw [nestingOf, nestingOf, same]

private theorem nestingOf_nil (depth : Nat) : nestingOf depth [] = some depth := rfl

/-- The conditionals of a text are those of the code of its pieces. -/
theorem nestingAfter_linesOfPieces (depth : Nat) (pieces : List Text) :
    nestingAfter depth (Text.linesOfPieces pieces) = nestingAfter depth pieces := by
  induction pieces generalizing depth with
  | nil => rfl
  | cons line rest ih =>
    cases rest with
    | nil =>
      cases line with
      | nil => rfl
      | cons c others => rfl
    | cons next rest =>
      rw [Text.linesOfPieces, nestingAfter, nestingAfter,
        nestingOf_congr (Directive.ofLine?_dropReturn line)]
      exact congrArg _ (funext ih)

private theorem nestingAfter_pairsFrom (depth : Nat) (state : Text.CommentState)
    (pieces : List Text) :
    nestingAfter depth ((Include.pairsFrom state pieces).map Prod.snd) =
      nestingAfter depth (Text.codesFrom state pieces) := by
  induction pieces generalizing depth state with
  | nil => rfl
  | cons line rest ih =>
    cases rest with
    | nil =>
      by_cases comment : state.stripped line = [] <;>
        simp [Include.pairsFrom, Text.codesFrom, comment, nestingAfter, nestingOf_nil]
    | cons next rest =>
      rw [Include.pairsFrom, List.map_cons, nestingAfter, Text.codesFrom, nestingAfter,
        nestingOf_congr (Directive.ofLine?_dropReturn _)]
      exact congrArg _ (funext fun depth => ih depth _)

/-- Lines that are read again without what followed their newlines open the same conditionals. -/
theorem nestingAfter_own (depth : Nat) (state : Text.CommentState) (pieces : List Text) :
    nestingAfter depth (Text.codesFrom state ((Include.pairsFrom state pieces).map Prod.fst)) =
      nestingAfter depth (Text.codesFrom state pieces) := by
  induction pieces generalizing depth state with
  | nil => rfl
  | cons line rest ih =>
    cases rest with
    | nil =>
      by_cases comment : state.stripped line = [] <;>
        simp [Include.pairsFrom, Text.codesFrom, comment, nestingAfter, nestingOf_nil]
    | cons next rest =>
      rw [Include.pairsFrom, List.map_cons, Text.codesFrom, nestingAfter, Text.codesFrom,
        nestingAfter, Text.CommentState.afterLine_dropReturn,
        nestingOf_congr (Directive.ofLine?_stripped_dropReturn state line)]
      exact congrArg _ (funext fun depth => ih depth _)

private theorem single_of_mem_pairsFrom {state : Text.CommentState} {pieces : List Text}
    (single : ∀ piece ∈ pieces, '\n' ∉ piece) :
    ∀ line ∈ (Include.pairsFrom state pieces).map Prod.fst, '\n' ∉ line := by
  induction pieces generalizing state with
  | nil => simp [Include.pairsFrom]
  | cons piece rest ih =>
    cases rest with
    | nil =>
      by_cases comment : state.stripped piece = []
      · simp [Include.pairsFrom, comment]
      · simpa [Include.pairsFrom, comment] using single
    | cons next rest =>
      intro line member
      rw [Include.pairsFrom, List.map_cons, List.mem_cons] at member
      rcases member with rfl | member
      · have here := single piece (by simp)
        rcases Text.dropReturn_cases piece with same | longer
        · rwa [same]
        · rw [longer] at here
          exact fun found => here (by simp [found])
      · exact ih (fun other member => single other (by simp [member])) line member

/-- What expansion makes of a text without include lines has the text's conditionals. -/
theorem nestingAfter_resolved (depth : Nat) (text : Text) :
    nestingAfter depth ((Include.linesWithCode (Include.resolved text)).map Prod.snd) =
      nestingAfter depth (Text.lines (Text.stripComments text)) := by
  have single : ∀ line ∈ Include.ownLines text, '\n' ∉ line := by
    rw [Include.ownLines, Include.linesWithCode_eq]
    exact single_of_mem_pairsFrom fun piece => Text.notMem_of_mem_splitEvery
  have own := nestingAfter_own depth .code (Text.splitEvery '\n' text)
  rw [← Include.linesWithCode_eq, ← Include.ownLines] at own
  rw [Include.linesWithCode_eq, nestingAfter_pairsFrom, Text.lines, nestingAfter_linesOfPieces,
    Text.stripComments_eq, Text.splitEvery_stripped, ← own, Include.resolved]
  by_cases none : Include.ownLines text = []
  · rw [none]
    rfl
  · rw [Text.splitEvery_joinLines none single]

namespace Pass

/-- Lines that are kept after lines. -/
theorem result_follow (first second : Pass (List Text)) (state : State) :
    (do
      let here ← first
      return here ++ (← second)).result state =
      match first.result state with
      | (.ok here, between) =>
        ((second.result between).1.map (here ++ ·), (second.result between).2)
      | (.error fault, between) => (.error fault, between) := by
  rw [result_bind]
  cases first.result state with
  | mk answer between =>
    cases answer with
    | ok here => exact result_map _ _ _
    | error fault => rfl

theorem of_follow_ok {first second : Pass (List Text)} {state after : State} {kept : List Text}
    (done : (do
      let here ← first
      return here ++ (← second)).result state = (.ok kept, after)) :
    ∃ here between more, first.result state = (.ok here, between) ∧
      second.result between = (.ok more, after) ∧ kept = here ++ more := by
  rw [result_follow] at done
  cases answered : first.result state with
  | mk answer between =>
    cases answer with
    | error fault => simp [answered] at done
    | ok here =>
      cases followed : second.result between with
      | mk others last =>
        cases others with
        | error fault => simp [answered, followed, Except.map] at done
        | ok more =>
          simp only [answered, followed, Except.map, Prod.mk.injEq, Except.ok.injEq] at done
          obtain ⟨rfl, rfl⟩ := done
          exact ⟨here, between, more, rfl, followed, rfl⟩

private theorem length_gates_directive (place : Place) (line : Text) (name : String)
    (argument : Text) {state : State} {depth : Nat}
    (nests : (Command.ofName name).nesting state.gates.length = some depth) :
    ((directive place line name argument).result state).2.gates.length = depth := by
  obtain ⟨gates, macros⟩ := state
  rw [result_directive]
  cases asks : Command.ofName name with
  | define | undefine =>
    rw [asks] at nests
    cases live : gates.live <;> simpa [live, Command.nesting] using nests
  | ifDefined | ifNotDefined | ifTrue => simpa [asks, Command.nesting] using nests
  | elseIf | otherwise | endIf =>
    rw [asks] at nests
    cases gates with
    | nil => simp [Command.nesting] at nests
    | cons gate outer => simpa [Command.nesting, Gates.alternative?, Gates.close?] using nests
  | error | foreign => simpa [asks, Command.nesting] using nests

private theorem length_gates_line (place : Place) (text : Text) {code : Text} {state : State}
    {depth : Nat} (nests : nestingOf state.gates.length code = some depth) :
    ((line place text code).result state).2.gates.length = depth := by
  rw [line]
  rw [nestingOf] at nests
  cases found : Directive.ofLine? code with
  | none => simpa [found, result_keep] using nests
  | some read =>
    rw [found] at nests
    exact length_gates_directive place text read.name read.argument nests

/-- Where the pass comes to the end of some lines, it has the conditionals open that the lines
leave open. -/
theorem length_gates_lines (origin : String) (number : Nat) {pairs : List (Text × Text)}
    {state after : State} {kept : List Text} {depth : Nat}
    (nests : nestingAfter state.gates.length (pairs.map Prod.snd) = some depth)
    (done : (lines origin number pairs).result state = (.ok kept, after)) :
    after.gates.length = depth := by
  induction pairs generalizing number state kept with
  | nil =>
    cases done
    exact Option.some.inj nests
  | cons pair rest ih =>
    obtain ⟨text, code⟩ := pair
    obtain ⟨inner, opens, follows⟩ := Option.bind_eq_some_iff.mp nests
    have here := length_gates_line ⟨origin, number⟩ text opens
    rw [lines] at done
    obtain ⟨_, between, _, first, second, _⟩ := of_follow_ok done
    rw [first] at here
    subst here
    exact ih (number + 1) follows second

/-! ### Lines without what they leave -/

/-- The fault and the state that the pass comes to, apart from its answer. -/
def ending (pass : Pass α) (state : State) : Except Fault Unit × State :=
  ((pass.result state).1.map fun _ => (), (pass.result state).2)

private theorem ending_follow (first second : Pass (List Text)) (state : State) :
    (do
      let here ← first
      return here ++ (← second)).ending state =
      match first.ending state with
      | (.ok _, between) => second.ending between
      | (.error fault, between) => (.error fault, between) := by
  rw [ending, result_follow, ending]
  cases first.result state with
  | mk answer between =>
    cases answer with
    | ok here =>
      simp only [Except.map, ending]
      cases (second.result between).1 <;> rfl
    | error fault => rfl

/-- Two lines with the same directive, or with none, come to the same end. -/
theorem ending_line_congr (place : Place) (text other : Text) {code same : Text}
    (reads : Directive.ofLine? code = Directive.ofLine? same) (state : State) :
    (line place text code).ending state = (line place other same).ending state := by
  rw [line, line, reads]
  cases Directive.ofLine? same with
  | none => rfl
  | some found =>
    simp only [ending, result_directive]
    cases Command.ofName found.name <;> rfl

/-- A newline at the end of a text changes nothing but the lines that are kept. -/
theorem ending_pairsFrom (origin : String) (number : Nat) (comments : Text.CommentState)
    (pieces : List Text) (state : State) :
    (lines origin number (Include.pairsFrom comments pieces)).ending state =
      (lines origin number (Include.endedFrom comments pieces)).ending state := by
  induction pieces generalizing number comments state with
  | nil => rfl
  | cons piece rest ih =>
    cases rest with
    | nil =>
      by_cases comment : comments.stripped piece = []
      · simp only [Include.pairsFrom, Include.endedFrom, comment, List.isEmpty_nil, ↓reduceIte]
        rfl
      · simp only [Include.pairsFrom, Include.endedFrom, comment, List.isEmpty_iff, ↓reduceIte,
          lines, ending_follow]
        rw [ending_line_congr _ _ _ (Directive.ofLine?_dropReturn _)]
    | cons next rest =>
      simp only [Include.pairsFrom, Include.endedFrom, lines, ending_follow, ih]

private theorem ending_endedWithCode (origin : String) (number : Nat) (text : Text)
    (state : State) :
    (lines origin number (Include.linesWithCode text)).ending state =
      (lines origin number (Include.endedWithCode text)).ending state := by
  rw [Include.linesWithCode_eq, Include.endedWithCode_eq, ending_pairsFrom]

theorem endedWithCode_ok {origin : String} {number : Nat} {text : Text} {state after : State}
    {kept : List Text}
    (done : (lines origin number (Include.linesWithCode text)).result state = (.ok kept, after)) :
    ∃ ended, (lines origin number (Include.endedWithCode text)).result state =
      (.ok ended, after) := by
  have same := ending_endedWithCode origin number text state
  rw [ending, ending, done] at same
  cases other : (lines origin number (Include.endedWithCode text)).result state with
  | mk answer last =>
    rw [other] at same
    cases answer with
    | ok ended =>
      cases same
      exact ⟨ended, rfl⟩
    | error fault => cases same

theorem endedWithCode_error {origin : String} {number : Nat} {text : Text} {state after : State}
    {fault : Fault}
    (failed : (lines origin number (Include.linesWithCode text)).result state =
      (.error fault, after)) :
    (lines origin number (Include.endedWithCode text)).result state = (.error fault, after) := by
  have same := ending_endedWithCode origin number text state
  rw [ending, ending, failed] at same
  cases other : (lines origin number (Include.endedWithCode text)).result state with
  | mk answer last =>
    rw [other] at same
    cases answer with
    | ok ended => cases same
    | error fault =>
      cases same
      rfl

/-! ### Texts in two parts -/

/-- A newline at the end brings in a last line that has no code. -/
theorem result_text_newline (origin : String) (text : Text) (state : State) :
    (Pass.text origin (text ++ ['\n'])).result state =
      let run := (lines origin 1 (Include.endedWithCode text)).result state
      (run.1.map Text.joinLines, run.2) := by
  have whole := Include.linesWithCode_append_newline text []
  rw [Text.lines_nil, List.zip_nil_left, List.append_nil] at whole
  rw [result_text, whole]

/-- After a newline the pass goes on where the text before it has come to. -/
theorem result_text_append (origin : String) (first second : Text) (state : State) :
    (Pass.text origin (first ++ '\n' :: second)).result state =
      match (lines origin 1 (Include.endedWithCode first)).result state with
      | (.ok kept, between) =>
        let rest := (lines origin (1 + (Include.endedWithCode first).length)
          ((Text.lines second).zip (Text.lines
            ((Text.CommentState.code.afterLine first).stripped second)))).result between
        (rest.1.map fun more => Text.joinLines (kept ++ more), rest.2)
      | (.error fault, between) => (.error fault, between) := by
  rw [result_text, Include.linesWithCode_append_newline, lines_append, result_follow]
  cases (lines origin 1 (Include.endedWithCode first)).result state with
  | mk answer between =>
    cases answer with
    | ok kept =>
      dsimp only
      cases (lines origin (1 + (Include.endedWithCode first).length) _).result between with
      | mk others after => cases others <;> rfl
    | error fault => rfl

/-! ### Lines at another place -/

private theorem line_below (origin : String) (number count : Nat) (text code : Text)
    (state : State) :
    (line ⟨origin, number + count⟩ text code).result state =
      (((line ⟨origin, number⟩ text code).result state).1.mapError (Fault.below count),
        ((line ⟨origin, number⟩ text code).result state).2) := by
  rw [line, line]
  cases Directive.ofLine? code with
  | none => rfl
  | some found =>
    simp only [result_directive]
    cases Command.ofName found.name with
    | error => cases state.gates.live <;> rfl
    | _ => rfl

/-- The number of the first line tells in the place of a fault, and nowhere else. -/
theorem lines_below (origin : String) (number count : Nat) (pairs : List (Text × Text))
    (state : State) :
    (lines origin (number + count) pairs).result state =
      (((lines origin number pairs).result state).1.mapError (Fault.below count),
        ((lines origin number pairs).result state).2) := by
  induction pairs generalizing number state with
  | nil => rfl
  | cons pair rest ih =>
    rw [lines, lines, result_follow, result_follow, line_below, Nat.add_right_comm]
    cases (line ⟨origin, number⟩ pair.1 pair.2).result state with
    | mk answer between =>
      cases answer with
      | error fault => rfl
      | ok here =>
        change (((lines origin (number + 1 + count) rest).result between).1.map (here ++ ·), _) =
          ((((lines origin (number + 1) rest).result between).1.map (here ++ ·)).mapError _, _)
        rw [ih (number + 1)]
        cases ((lines origin (number + 1) rest).result between).1 <;> rfl

/-- The answer and the state, apart from the line that a fault names. -/
def unplaced (pass : Pass α) (state : State) : Except Fault α × State :=
  ((pass.result state).1.mapError Fault.unplaced, (pass.result state).2)

theorem lines_renumber (origin : String) (number other : Nat) (pairs : List (Text × Text))
    (state : State) :
    (lines origin number pairs).unplaced state = (lines origin other pairs).unplaced state := by
  have first (number : Nat) : (lines origin number pairs).unplaced state =
      (lines origin 0 pairs).unplaced state := by
    have below := lines_below origin 0 number pairs state
    rw [Nat.zero_add] at below
    rw [unplaced, below, unplaced]
    cases ((lines origin 0 pairs).result state).1 with
    | ok kept => rfl
    | error fault =>
      change (Except.error (fault.below number).unplaced, _) = (Except.error fault.unplaced, _)
      rw [Fault.unplaced_below]
  rw [first number, first other]

end Pass

end Conditional

end ShaderPipeline
