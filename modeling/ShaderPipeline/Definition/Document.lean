import ShaderPipeline.Definition.Basic
import ShaderPipeline.Schema.TypesSection
import ShaderPipeline.Schema.UniformsSection
import ShaderPipeline.State.Section
import ShaderPipeline.Text.Document
import ShaderPipeline.Vertex.Section

/-! Definition documents. A `#section` line starts a section, and the lines after it belong to it;
lines before the first one and after one of an unknown name are dropped. A section that occurs
again goes on. Uniforms may use the structs of the types section wherever it stands. -/

namespace ShaderPipeline.Definition

/-- The lines of each kind of section as one text, every line ended by a newline. -/
structure Accumulators where
  texts : Vector Text SectionKind.all.length

namespace Accumulators

def empty : Accumulators := ⟨.replicate _ []⟩

def gathered (accumulators : Accumulators) (kind : SectionKind) : Text :=
  accumulators.texts[kind.index]

def pushLine (accumulators : Accumulators) (kind : SectionKind) (line : Text) : Accumulators :=
  ⟨accumulators.texts.set kind.index (accumulators.gathered kind ++ (line ++ ['\n']))⟩

/-- The text of a section without newlines at its end, if anything is left of it. -/
def text? (accumulators : Accumulators) (kind : SectionKind) : Option Text :=
  let text := Text.dropTrailing '\n' (accumulators.gathered kind)
  if text.isEmpty then none else some text

@[simp] theorem gathered_empty (kind : SectionKind) : empty.gathered kind = [] :=
  Vector.getElem_replicate _

theorem gathered_pushLine (accumulators : Accumulators) (kind other : SectionKind) (line : Text) :
    (accumulators.pushLine kind line).gathered other =
      if other = kind then accumulators.gathered kind ++ (line ++ ['\n'])
      else accumulators.gathered other := by
  rw [gathered, pushLine, Fin.getElem_fin, Vector.getElem_set]
  by_cases same : other = kind
  · simp [same]
  · have apart : (kind.index : Nat) ≠ other.index := fun equal =>
      same (SectionKind.index_inj.mp (Fin.ext equal)).symm
    rw [if_neg apart, if_neg same]
    rfl

end Accumulators

/-- What a line says about sections: the argument of a `#section` line. -/
def sectionArgument? (line : Text) : Option Text := do
  let directive ← Directive.ofLine? line
  if directive.name.toLower = "section" then some directive.argument else none

/-- The section that an argument names. -/
def namedSection? (argument : Text) : Option SectionKind :=
  SectionKind.ofName? ((Text.words argument).headD []).string

/-- Gathers the lines of each section, where the given section is open. -/
def gather (accumulators : Accumulators) (current? : Option SectionKind) :
    List Text → Logged Accumulators
  | [] => return accumulators
  | line :: rest =>
    match sectionArgument? line with
    | some argument => do
      let next? := namedSection? argument
      if next?.isNone then
        Logged.warn s!"Unknown section '{argument.string}', its lines are ignored"
      gather accumulators next? rest
    | none =>
      match current? with
      | some kind => gather (accumulators.pushLine kind line) current? rest
      | none => gather accumulators current? rest

/-- Reads the sections that have a text, and stores them. -/
def ofAccumulators (accumulators : Accumulators) : Attempt Definition := do
  let text? := accumulators.text?
  let types? ← (text? .types).mapM fun text => Schema.Types.ofSection text
  let uniforms? ← (text? .uniforms).mapM fun text =>
    Schema.Uniforms.ofSection text (types?.getD .empty)
  let layout? ← (text? .layout).mapM Vertex.Layout.ofSection
  let state? ← (text? .state).mapM fun text => State.ofSection text
  let read : List (Option Section) := [uniforms?.map .uniforms, types?.map .types,
    layout?.map .layout, state?.map .state]
  let sources := SourceKind.all.map fun kind => (text? (.source kind)).map (.source kind)
  return ofStored (read ++ sources)

/-- Reads a text as a section of the given kind, in a definition whose types are known. -/
def readSection (definition : Definition) (text : Text) : SectionKind → Attempt Section
  | .layout => return .layout (← Vertex.Layout.ofSection text)
  | .types => return .types (← Schema.Types.ofSection text)
  | .state => return .state (← State.ofSection text)
  | .uniforms =>
    return .uniforms (← Schema.Uniforms.ofSection text (definition.types.getD .empty))
  | .source kind => return .source kind text

/-- Reads a definition document. -/
def ofDocument (document : Text) : Attempt Definition := do
  ofAccumulators (← gather .empty none (Text.lines (Text.cleanDocument document)))

end ShaderPipeline.Definition
