import ShaderPipeline.Program.Stage
import ShaderPipeline.Schema.Uniform
import ShaderPipeline.State.Basic
import ShaderPipeline.Vertex.Layout

/-! Pipeline definitions: at most one section of each kind. -/

namespace ShaderPipeline

/-- Sections of shader source: the text of one stage, or text common to all. -/
inductive SourceKind where
  | common
  | stage (kind : StageKind)
  deriving DecidableEq, Repr

inductive SectionKind where
  | layout
  | types
  | state
  | uniforms
  | source (kind : SourceKind)
  deriving DecidableEq, Repr

def SourceKind.name : SourceKind → String
  | .common => "common"
  | .stage kind => kind.name

/-- In the order of definitions. -/
def SourceKind.all : List SourceKind := .common :: StageKind.all.map .stage

namespace SectionKind

def name : SectionKind → String
  | .layout => "layout"
  | .types => "types"
  | .state => "state"
  | .uniforms => "uniforms"
  | .source kind => kind.name

/-- In the order of definitions. -/
def all : List SectionKind :=
  [.layout, .types, .state, .uniforms] ++ SourceKind.all.map .source

theorem mem_all (kind : SectionKind) : kind ∈ all := by
  rcases kind with _ | _ | _ | _ | ⟨_ | ⟨_ | _ | _ | _⟩⟩ <;> decide

/-- The place of a kind among all kinds. -/
def index (kind : SectionKind) : Fin all.length :=
  ⟨all.idxOf kind, List.idxOf_lt_length_of_mem kind.mem_all⟩

theorem index_inj {first second : SectionKind} : first.index = second.index ↔ first = second := by
  have apart : ∀ first ∈ all, ∀ second ∈ all,
      all.idxOf first = all.idxOf second ↔ first = second := by
    decide
  rw [index, index, Fin.mk.injEq]
  exact apart first first.mem_all second second.mem_all

/-- Reads a section's name in letters of any case. -/
def ofName? (name : String) : Option SectionKind := all.find? (·.name == name.toLower)

/-- The kind of source, for sections of shader source. -/
def source? : SectionKind → Option SourceKind
  | .source kind => some kind
  | _ => none

/-- The stage that a section is compiled to. -/
def stage? : SectionKind → Option StageKind
  | .source (.stage kind) => some kind
  | _ => none

end SectionKind

/-- One section. A layout section without attributes has no layout. -/
inductive Section where
  | layout (layout : Option Vertex.Layout)
  | types (types : Schema.Types)
  | state (state : State)
  | uniforms (uniforms : Schema.Uniforms)
  | source (kind : SourceKind) (text : Text)
  deriving DecidableEq, Repr

def Section.kind : Section → SectionKind
  | .layout _ => .layout
  | .types _ => .types
  | .state _ => .state
  | .uniforms _ => .uniforms
  | .source kind _ => .source kind

/-! What a section holds, if it is of the kind in question. -/

def Section.layout? : Section → Option (Option Vertex.Layout)
  | .layout held => some held
  | _ => none

def Section.types? : Section → Option Schema.Types
  | .types held => some held
  | _ => none

def Section.state? : Section → Option State
  | .state held => some held
  | _ => none

def Section.uniforms? : Section → Option Schema.Uniforms
  | .uniforms held => some held
  | _ => none

def Section.text? : Section → Option Text
  | .source _ held => some held
  | _ => none

/-- The sections of a definition, each present or not. -/
structure Definition where
  layout : Option (Option Vertex.Layout)
  types : Option Schema.Types
  state : Option State
  uniforms : Option Schema.Uniforms
  common : Option Text
  vertex : Option Text
  geometry : Option Text
  fragment : Option Text
  compute : Option Text
  deriving DecidableEq, Repr

namespace Definition

def empty : Definition := ⟨none, none, none, none, none, none, none, none, none⟩

instance : EmptyCollection Definition := ⟨empty⟩

def source? (definition : Definition) : SourceKind → Option Text
  | .common => definition.common
  | .stage .vertex => definition.vertex
  | .stage .geometry => definition.geometry
  | .stage .fragment => definition.fragment
  | .stage .compute => definition.compute

def section? (definition : Definition) : SectionKind → Option Section
  | .layout => definition.layout.map .layout
  | .types => definition.types.map .types
  | .state => definition.state.map .state
  | .uniforms => definition.uniforms.map .uniforms
  | .source kind => (definition.source? kind).map (.source kind)

def setSource (definition : Definition) (text : Option Text) : SourceKind → Definition
  | .common => { definition with common := text }
  | .stage .vertex => { definition with vertex := text }
  | .stage .geometry => { definition with geometry := text }
  | .stage .fragment => { definition with fragment := text }
  | .stage .compute => { definition with compute := text }

/-- Stores a section, in place of an earlier one of its kind. -/
def set (definition : Definition) : Section → Definition
  | .layout layout => { definition with layout := some layout }
  | .types types => { definition with types := some types }
  | .state state => { definition with state := some state }
  | .uniforms uniforms => { definition with uniforms := some uniforms }
  | .source kind text => definition.setSource (some text) kind

def erase (definition : Definition) : SectionKind → Definition
  | .layout => { definition with layout := none }
  | .types => { definition with types := none }
  | .state => { definition with state := none }
  | .uniforms => { definition with uniforms := none }
  | .source kind => definition.setSource none kind

/-- Takes a section out of a definition, and what it holds out of the section. -/
def take (definition : Definition) (kind : SectionKind) (content? : Section → Option α) :
    Option α × Definition :=
  ((definition.section? kind).bind content?, definition.erase kind)

/-- Stores a section if there is one. -/
def store (definition : Definition) : Option Section → Definition
  | none => definition
  | some content => definition.set content

/-- The definition of the sections that are there. -/
def ofStored (sections : List (Option Section)) : Definition := sections.foldl store empty

def contains (definition : Definition) (kind : SectionKind) : Bool :=
  (definition.section? kind).isSome

/-- The sections present, in the order of kinds. -/
def toList (definition : Definition) : List Section :=
  SectionKind.all.filterMap definition.section?

def size (definition : Definition) : Nat := definition.toList.length

def isEmpty (definition : Definition) : Bool := definition.size == 0

@[simp] theorem section?_set (definition : Definition) (content : Section) :
    (definition.set content).section? content.kind = some content := by
  cases content with
  | source kind text => cases kind with
    | common => rfl
    | stage stage => cases stage <;> rfl
  | _ => rfl

theorem section?_set_of_ne (definition : Definition) (content : Section) (kind : SectionKind)
    (other : kind ≠ content.kind) :
    (definition.set content).section? kind = definition.section? kind := by
  rcases content with _ | _ | _ | _ | ⟨_ | ⟨_ | _ | _ | _⟩, _⟩ <;>
    rcases kind with _ | _ | _ | _ | ⟨_ | ⟨_ | _ | _ | _⟩⟩ <;>
      first | rfl | exact absurd rfl other

theorem section?_store (definition : Definition) (content? : Option Section) (kind : SectionKind) :
    (definition.store content?).section? kind =
      (content?.filter (·.kind = kind)).or (definition.section? kind) := by
  cases content? with
  | none => rfl
  | some content =>
    rw [store, Option.filter_some]
    by_cases same : content.kind = kind
    · subst same
      simp
    · simp [same, section?_set_of_ne definition content kind (Ne.symm same)]

/-- Definitions of the same sections are the same. -/
theorem ext_section? {first second : Definition}
    (same : ∀ kind, first.section? kind = second.section? kind) : first = second := by
  have source (kind : SourceKind) : first.source? kind = second.source? kind :=
    Option.map_injective (fun _ _ equal => (Section.source.inj equal).2) (same (.source kind))
  rw [Definition.mk.injEq]
  exact ⟨Option.map_injective (fun _ _ => Section.layout.inj) (same .layout),
    Option.map_injective (fun _ _ => Section.types.inj) (same .types),
    Option.map_injective (fun _ _ => Section.state.inj) (same .state),
    Option.map_injective (fun _ _ => Section.uniforms.inj) (same .uniforms),
    source .common, source (.stage .vertex), source (.stage .geometry), source (.stage .fragment),
    source (.stage .compute)⟩

/-- Sections that are stored one after the other are all there, and no others. -/
theorem ofStored_eq (layout? : Option (Option Vertex.Layout)) (types? : Option Schema.Types)
    (state? : Option State) (uniforms? : Option Schema.Uniforms)
    (source? : SourceKind → Option Text) :
    ofStored ([uniforms?.map .uniforms, types?.map .types, layout?.map .layout,
        state?.map .state] ++ SourceKind.all.map fun kind => (source? kind).map (.source kind)) =
      ⟨layout?, types?, state?, uniforms?, source? .common, source? (.stage .vertex),
        source? (.stage .geometry), source? (.stage .fragment), source? (.stage .compute)⟩ := by
  have whole {α : Type} (given? : Option α) : given?.filter (fun _ => true) = given? := by
    cases given? <;> rfl
  refine ext_section? fun kind => ?_
  simp only [ofStored, SourceKind.all, StageKind.all, List.map_cons, List.map_nil, List.cons_append,
    List.nil_append, List.foldl_cons, List.foldl_nil, section?_store, Option.filter_map]
  rcases kind with _ | _ | _ | _ | ⟨_ | ⟨_ | _ | _ | _⟩⟩ <;>
    simp [section?, Section.kind, Function.comp_def, whole, empty, Definition.source?]

end Definition

end ShaderPipeline
