import ShaderPipeline.Condition.Evaluation
import ShaderPipeline.Conditional.Gates
import ShaderPipeline.Include.Expansion
import ShaderPipeline.Log

/-! The conditional pass over a text whose includes have been expanded: it evaluates
conditionals, keeps the macro table, and expands macros in the lines that stay. -/

namespace ShaderPipeline.Conditional

/-- What a directive asks of the pass. -/
inductive Command where
  | define
  | undefine
  | ifDefined
  | ifNotDefined
  | ifTrue
  | elseIf
  | otherwise
  | endIf
  | error
  /-- A directive for the compiler behind this pass. -/
  | foreign
  deriving DecidableEq, Repr

def Command.ofName : String → Command
  | "define" => .define
  | "undef" => .undefine
  | "ifdef" => .ifDefined
  | "ifndef" => .ifNotDefined
  | "if" => .ifTrue
  | "elif" => .elseIf
  | "else" => .otherwise
  | "endif" => .endIf
  | "error" => .error
  | _ => .foreign

/-- Recoverable problems of directives. -/
inductive Problem where
  | noMacroName (directive : String)
  | invalidMacroName (name : Text)
  | noOpenConditional (directive : String)
  | condition (argument : Text) (error : Condition.Error)

def Problem.message : Problem → String
  | .noMacroName directive => s!"#{directive} without a macro name"
  | .invalidMacroName name => s!"ignoring #define with invalid name '{name.string}'"
  | .noOpenConditional directive => s!"#{directive} without a matching #if"
  | .condition argument error =>
    s!"cannot evaluate condition '{argument.string}': {error.message}"

structure State where
  gates : Gates
  macros : MacroTable

/-- The pass changes its state and warns, and ends at an `#error` line. What it has changed
until then stays. -/
abbrev Pass := ExceptT Fault (StateT State Logged)

/-- The place that messages name: a label of the text and a line number. -/
structure Place where
  origin : String
  line : Nat

namespace Pass

def warn (place : Place) (problem : Problem) : Pass Unit :=
  ExceptT.lift (StateT.lift (Logged.warn s!"{place.origin}:{place.line}: {problem.message}"))

def fail (fault : Fault) : Pass α :=
  ExceptT.mk (fun state => ⟨(.error fault, state), [.failure fault]⟩)

def live : Pass Bool := return (← get).gates.live

def setGates (gates : Gates) : Pass Unit := modify fun state => { state with gates }

def setMacros (macros : MacroTable) : Pass Unit := modify fun state => { state with macros }

/-- Changes the gates, or warns that no conditional is open. -/
def changeGates (place : Place) (directive : String) (change : Gates → Option Gates) :
    Pass Unit := do
  match change (← get).gates with
  | some gates => setGates gates
  | none => warn place (.noOpenConditional directive)

/-- The name and the value of a definition. The value starts after the first blank. -/
def definition (argument : Text) : Text × Text :=
  (argument.takeWhile (!Text.isBlank ·),
    Text.trim ((argument.dropWhile (!Text.isBlank ·)).drop 1))

def define (place : Place) (argument : Text) : Pass Unit := do
  let (name, value) := definition argument
  if Text.isIdentifier name then
    setMacros ((← get).macros.insert name.string value)
  else warn place (.invalidMacroName name)

def undefine (place : Place) (argument : Text) : Pass Unit := do
  match (Text.words argument).head? with
  | some name => setMacros ((← get).macros.erase name.string)
  | none => warn place (.noMacroName "undef")

/-- Whether the macro that `argument` names is defined, if it names one. -/
def isDefined (place : Place) (directive : String) (argument : Text) : Pass (Option Bool) := do
  match (Text.words argument).head? with
  | some name => return some ((← get).macros.contains name.string)
  | none =>
    warn place (.noMacroName directive)
    return none

/-- The truth of a condition. One that cannot be evaluated is warned about and false. -/
def holds (place : Place) (argument : Text) : Pass Bool := do
  let macros := (← get).macros
  match Condition.evaluate macros (Macro.expand macros .nonEmpty argument) with
  | .ok truth => return truth
  | .error error =>
    warn place (.condition argument error)
    return false

/-- Opens a conditional. In text that is not live its test is not made. -/
def openGate (test : Pass Bool) : Pass Unit := do
  let gate ← if ← live then test else pure false
  setGates (gate :: (← get).gates)

/-- Runs `action` in live text only. -/
def whenLive (action : Pass Unit) : Pass Unit := do
  if ← live then action

/-- The lines that a line of text or a foreign directive leaves. -/
def keep (render : MacroTable → Text) : Pass (List Text) := do
  let state ← get
  return if state.gates.live then [render state.macros] else []

/-- Carries out one directive, and gives the lines it leaves. -/
def directive (place : Place) (line : Text) (name : String) (argument : Text) :
    Pass (List Text) := do
  match Command.ofName name with
  | .define => whenLive (define place argument); return []
  | .undefine => whenLive (undefine place argument); return []
  | .ifDefined =>
    openGate (return (← isDefined place name argument) == some true)
    return []
  | .ifNotDefined =>
    openGate (return (← isDefined place name argument) == some false)
    return []
  | .ifTrue => openGate (holds place argument); return []
  | .elseIf =>
    let condition ← holds place argument
    changeGates place name (Gates.alternative? condition)
    return []
  | .otherwise => changeGates place name (Gates.alternative? true); return []
  | .endIf => changeGates place name Gates.close?; return []
  | .error =>
    whenLive (fail (.errorDirective place.origin place.line argument.string))
    return []
  | .foreign => keep fun _ => line

/-- Carries out one line, given with its form without comments. -/
def line (place : Place) (line code : Text) : Pass (List Text) :=
  match Directive.ofLine? code with
  | none => keep fun macros => Macro.expand macros .all line
  | some found => directive place line found.name found.argument

/-- Carries out lines, the first of which has the given number. -/
def lines (origin : String) : (number : Nat) → List (Text × Text) → Pass (List Text)
  | _, [] => pure []
  | number, (text, code) :: rest => do
    let here ← line ⟨origin, number⟩ text code
    return here ++ (← lines origin (number + 1) rest)

/-- Warns about conditionals that the end of the text leaves open. -/
def finish (origin : String) : Pass Unit := do
  let depth := (← get).gates.length
  if depth > 0 then
    ExceptT.lift (StateT.lift (Logged.warn
      s!"{origin}: {depth} conditional block(s) left open at end of input"))

/-- Carries out a text. -/
def text (origin : String) (text : Text) : Pass Text := do
  let kept ← lines origin 1 (Include.linesWithCode text)
  finish origin
  return Text.joinLines kept

end Pass

end ShaderPipeline.Conditional
