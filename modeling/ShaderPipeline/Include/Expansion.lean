import ShaderPipeline.Active
import ShaderPipeline.Include.Registry
import ShaderPipeline.Text.Comment
import ShaderPipeline.Text.Directive
import ShaderPipeline.Text.Lines

/-! Include expansion: each include line gives way to the expanded text it names. A name is not
expanded inside itself, so expansion ends for every registry. -/

namespace ShaderPipeline.Include

/-- The name between the quotes or angle brackets of an include's argument. -/
def name? (argument : Text) : Option String := do
  let (closing, inner) ← match argument with
    | '"' :: inner => some ('"', inner)
    | '<' :: inner => some ('>', inner)
    | _ => none
  let (inside, _) ← Text.splitAt? closing inner
  let name := Text.trim inside
  if name.isEmpty then none else some name.string

/-- What a line without comments is to include expansion. -/
inductive LineKind where
  | plain
  | malformed
  | splice (name : String)
  deriving DecidableEq, Repr

def LineKind.ofLine (line : Text) : LineKind :=
  match Directive.ofLine? line with
  | some ⟨"include", argument⟩ =>
    match name? (Text.trim argument) with
    | some name => .splice name
    | none => .malformed
  | _ => .plain

/-- Recoverable problems of include lines. -/
inductive Problem where
  | malformed (line : Text)
  | recursive (name : String) (chain : List String)
  | missing (name : String)

namespace Problem

def message : Problem → String
  | .malformed line => s!"Malformed include directive: '{line.string}'"
  | .recursive name chain =>
    s!"Include '{name}' recursively includes itself; chain: {quotedList chain}"
  | .missing name => missingMessage name

/-- The line that takes the place of the include line. -/
def marker : Problem → Text
  | .malformed line => "#error Malformed include directive: ".toList ++ line
  | .recursive name _ => s!"#error Recursive include: {name}".toList
  | .missing name => missingMarker name

end Problem

/-- Expansion counts the calls it makes to providers, and warns. -/
abbrev Expanding := StateT CallCounts Logged

def Expanding.mark (problem : Problem) : Expanding (List Text) := do
  StateT.lift (Logged.warn problem.message)
  return [problem.marker]

/-- The lines of a text, each with its form without comments. A last line that is only a
comment has none and drops out. -/
def linesWithCode (text : Text) : List (Text × Text) :=
  (Text.lines text).zip (Text.lines (Text.stripComments text))

set_option linter.unusedVariables false in
/-- Expands lines inside the includes of `chain`, outermost first. -/
def expandLines (providers : Providers) (chain : List String) :
    List (Text × Text) → Expanding (List Text)
  | [] => pure []
  | (line, code) :: rest =>
    let here : Expanding (List Text) :=
      match LineKind.ofLine code with
      | .plain => pure [line]
      | .malformed => Expanding.mark (.malformed (Text.trim line))
      | .splice name =>
        if active : name ∈ chain then Expanding.mark (.recursive name chain)
        else match found : providers[name]? with
          | none => Expanding.mark (.missing name)
          | some provider => do
            let (earlier, calls) := CallCounts.ask (← get) name
            set calls
            expandLines providers (chain ++ [name]) (linesWithCode (provider earlier))
    return (← here) ++ (← expandLines providers chain rest)
termination_by lines => (idleCount providers.keys chain, lines.length)
decreasing_by
  · apply Prod.Lex.left
    apply idleCount_append_lt _ active
    rw [Std.TreeMap.mem_keys]
    exact Std.TreeMap.mem_iff_isSome_getElem?.mpr (by simp [found])
  · apply Prod.Lex.right
    simp

/-- Expands every include of a text, depth first. -/
def expand (text : Text) (registry : Registry) : Logged (Text × Registry) := do
  let (lines, calls) ← (expandLines registry.providers [] (linesWithCode text)).run registry.calls
  return (Text.joinLines lines, { registry with calls })

end ShaderPipeline.Include
