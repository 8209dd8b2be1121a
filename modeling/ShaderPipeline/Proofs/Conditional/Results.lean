import ShaderPipeline.Proofs.Logged
import ShaderPipeline.Preprocessor

/-! What the conditional pass answers and leaves behind, apart from its warnings: one equation for
each of its steps. -/

namespace ShaderPipeline.Conditional

/-- The truth of a condition in a macro table. One that cannot be evaluated is false. -/
def holdsIn (macros : MacroTable) (argument : Text) : Bool :=
  match Condition.evaluate macros (Macro.expand macros .nonEmpty argument) with
  | .ok truth => truth
  | .error _ => false

/-- Whether the macro that an argument names is defined, if it names one. -/
def definedIn (macros : MacroTable) (argument : Text) : Option Bool :=
  (Text.words argument).head?.map fun name => macros.contains name.string

/-- The macro table after a definition. One without a proper name changes nothing. -/
def defineIn (macros : MacroTable) (argument : Text) : MacroTable :=
  let (name, value) := Pass.definition argument
  if Text.isIdentifier name then macros.insert name.string value else macros

/-- The macro table after the removal of the macro that an argument names. -/
def undefineIn (macros : MacroTable) (argument : Text) : MacroTable :=
  match (Text.words argument).head? with
  | some name => macros.erase name.string
  | none => macros

namespace Pass

/-- The answer of a computation and the state it leaves. -/
def result (pass : Pass α) (state : State) : Except Fault α × State := (pass.run.run state).value

theorem result_bind (first : Pass α) (next : α → Pass β) (state : State) :
    (first >>= next).result state =
      match first.result state with
      | (.ok value, after) => (next value).result after
      | (.error fault, after) => (.error fault, after) := by
  simp only [result, ExceptT.run_bind, StateT.run_bind, Logged.value_bind]
  cases (first.run.run state).value with
  | mk answer after => cases answer <;> rfl

theorem result_bind_ok {first : Pass α} {state after : State} {value : α}
    (done : first.result state = (.ok value, after)) (next : α → Pass β) :
    (first >>= next).result state = (next value).result after := by
  rw [result_bind, done]

theorem result_map (f : α → β) (pass : Pass α) (state : State) :
    (f <$> pass).result state = ((pass.result state).1.map f, (pass.result state).2) := by
  rw [map_eq_pure_bind, result_bind]
  cases pass.result state with
  | mk answer after => cases answer <;> rfl

@[simp] theorem result_get (state : State) : (get : Pass State).result state = (.ok state, state) :=
  rfl

@[simp] theorem result_fail (fault : Fault) (state : State) :
    (fail fault : Pass α).result state = (.error fault, state) := rfl

@[simp] theorem result_live (state : State) :
    live.result state = (.ok state.gates.live, state) := rfl

variable (place : Place) (argument : Text) (state : State)

@[simp] theorem result_holds :
    (holds place argument).result state = (.ok (holdsIn state.macros argument), state) := by
  rw [holds, result_bind_ok (result_get state), holdsIn]
  dsimp only
  cases Condition.evaluate state.macros (Macro.expand state.macros .nonEmpty argument) <;> rfl

@[simp] theorem result_isDefined (directive : String) :
    (isDefined place directive argument).result state =
      (.ok (definedIn state.macros argument), state) := by
  rw [isDefined, definedIn]
  cases (Text.words argument).head? <;> rfl

@[simp] theorem result_define :
    (define place argument).result state =
      (.ok (), { state with macros := defineIn state.macros argument }) := by
  rw [define, defineIn]
  by_cases proper : Text.isIdentifier (definition argument).1 = true
  · simp only [proper, ↓reduceIte]
    rfl
  · simp only [proper, Bool.false_eq_true, ↓reduceIte]
    rfl

@[simp] theorem result_undefine :
    (undefine place argument).result state =
      (.ok (), { state with macros := undefineIn state.macros argument }) := by
  rw [undefine, undefineIn]
  cases (Text.words argument).head? <;> rfl

private theorem result_whenLive (action : Pass Unit) :
    (whenLive action).result state =
      if state.gates.live then action.result state else (.ok (), state) := by
  rw [whenLive, result_bind_ok (result_live state)]
  split <;> rfl

private theorem result_openGate {test : Pass Bool} {truth : Bool}
    (tested : test.result state = (.ok truth, state)) :
    (openGate test).result state =
      (.ok (), { state with gates := (state.gates.live && truth) :: state.gates }) := by
  rw [openGate, result_bind_ok (result_live state)]
  cases state.gates.live with
  | true => rw [if_pos rfl, result_bind_ok tested, result_bind_ok (result_get _)]; rfl
  | false => rfl

/-- A change of the gates is made, or there is no conditional to change. -/
theorem result_changeGates (directive : String) (change : Gates → Option Gates) :
    (changeGates place directive change).result state =
      (.ok (), { state with gates := (change state.gates).getD state.gates }) := by
  rw [changeGates, result_bind_ok (result_get state)]
  cases change state.gates <;> rfl

theorem result_keep (render : MacroTable → Text) :
    (keep render).result state =
      (.ok (if state.gates.live then [render state.macros] else []), state) := rfl

private theorem result_finish (origin : String) :
    (finish origin).result state = (.ok (), state) := by
  rw [finish, result_bind_ok (result_get state)]
  dsimp only
  split <;> rfl

/-- What each directive answers and leaves behind. -/
theorem result_directive (line : Text) (name : String) :
    (directive place line name argument).result state =
      match Command.ofName name with
      | .define => (.ok [], if state.gates.live
          then { state with macros := defineIn state.macros argument } else state)
      | .undefine => (.ok [], if state.gates.live
          then { state with macros := undefineIn state.macros argument } else state)
      | .ifDefined => (.ok [], { state with
          gates := (state.gates.live && definedIn state.macros argument == some true) ::
            state.gates })
      | .ifNotDefined => (.ok [], { state with
          gates := (state.gates.live && definedIn state.macros argument == some false) ::
            state.gates })
      | .ifTrue => (.ok [], { state with
          gates := (state.gates.live && holdsIn state.macros argument) :: state.gates })
      | .elseIf => (.ok [], { state with
          gates := (Gates.alternative? (holdsIn state.macros argument) state.gates).getD
            state.gates })
      | .otherwise => (.ok [], { state with
          gates := (Gates.alternative? true state.gates).getD state.gates })
      | .endIf => (.ok [], { state with gates := (Gates.close? state.gates).getD state.gates })
      | .error => (if state.gates.live
          then .error (.errorDirective place.origin place.line argument.string) else .ok [], state)
      | .foreign => (.ok (if state.gates.live then [line] else []), state) := by
  rw [directive]
  cases Command.ofName name with
  | define =>
    cases live : state.gates.live <;> simp [result_map, result_whenLive, live, Except.map]
  | undefine =>
    cases live : state.gates.live <;> simp [result_map, result_whenLive, live, Except.map]
  | ifDefined =>
    have tested := result_bind_ok (result_isDefined place argument state name)
      fun found => pure (found == some true)
    exact result_bind_ok (result_openGate state tested) _
  | ifNotDefined =>
    have tested := result_bind_ok (result_isDefined place argument state name)
      fun found => pure (found == some false)
    exact result_bind_ok (result_openGate state tested) _
  | ifTrue => exact result_bind_ok (result_openGate state (result_holds place argument state)) _
  | elseIf =>
    dsimp only
    rw [result_bind_ok (result_holds place argument state),
      result_bind_ok (result_changeGates place state name _)]
    rfl
  | otherwise => exact result_bind_ok (result_changeGates place state name _) _
  | endIf => exact result_bind_ok (result_changeGates place state name _) _
  | error =>
    cases live : state.gates.live <;> simp [result_map, result_whenLive, live, Except.map]
  | foreign => exact result_keep state _

/-- The lines kept of a text are joined. Conditionals left open only warn. -/
theorem result_text (origin : String) (text : Text) :
    (Pass.text origin text).result state =
      let run := (lines origin 1 (Include.linesWithCode text)).result state
      (run.1.map Text.joinLines, run.2) := by
  rw [Pass.text, result_bind]
  cases (lines origin 1 (Include.linesWithCode text)).result state with
  | mk answer after =>
    cases answer with
    | ok kept => exact result_bind_ok (result_finish after origin) _
    | error fault => rfl

/-- Lines in a row are carried out in a row. -/
theorem lines_append (origin : String) (number : Nat) (first second : List (Text × Text)) :
    lines origin number (first ++ second) = (do
      let here ← lines origin number first
      return here ++ (← lines origin (number + first.length) second)) := by
  induction first generalizing number with
  | nil => simp [lines]
  | cons pair rest ih =>
    have shift : number + 1 + rest.length = number + (rest.length + 1) := by omega
    simp only [List.cons_append, lines, ih, bind_assoc, pure_bind, List.append_assoc,
      List.length_cons, shift]

end Pass

end ShaderPipeline.Conditional

namespace ShaderPipeline.Preprocessor

open Conditional

theorem value_conditionals (preprocessor : Preprocessor) (text : Text) :
    (preprocessor.conditionals text).value =
      let run := (Pass.text preprocessor.origin text).result ⟨[], preprocessor.macros⟩
      (run.1, { preprocessor with macros := run.2.macros }) := rfl

end ShaderPipeline.Preprocessor
