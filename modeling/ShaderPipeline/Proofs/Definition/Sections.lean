import ShaderPipeline.Definition.Document
import ShaderPipeline.Proofs.Logged
import ShaderPipeline.Proofs.Text.CleanDocument
import ShaderPipeline.Proofs.Vertex.SectionOverflow

/-! The sections of a document. Every line is a header, is dropped or belongs to one section, and a
definition depends on nothing but the lines of each section. -/

namespace ShaderPipeline

namespace Vertex.Layout

/-- Reading a layout section meets no packed group without room for a field. -/
def Fits (text : Text) : Prop :=
  ∀ group field requested available,
    (ofSection text).run.value ≠ .error (.packedOverflow group field requested available)

/-- A layout section whose groups have room is read. -/
theorem Fits.answers {text : Text} (fits : Fits text) :
    ∃ layout?, (ofSection text).run.value = .ok layout? := by
  cases read : (ofSection text).run.value with
  | ok layout? => exact ⟨layout?, rfl⟩
  | error fault =>
    have failed := read
    rw [ofSection] at failed
    rcases Logged.of_bind_error failed with failed | ⟨reader, _, failed⟩
    · obtain ⟨_, _, _, _, _, _, _, _, _, _, _, _, _, _, _, overflows⟩ :=
        Reader.lines_overflows Builder.wellFormed_empty failed
      cases overflows
      exact absurd read (fits _ _ _ _)
    · cases failed

end Vertex.Layout

namespace Definition

/-! ### What lines are -/

/-- What a line is to the sections of a document. -/
inductive Role where
  /-- A `#section` line. -/
  | header
  /-- A line outside all sections. -/
  | dropped
  | member (kind : SectionKind)
  deriving DecidableEq, Repr

def Role.all : List Role := .header :: .dropped :: SectionKind.all.map .member

/-- The section that is open behind some lines: the one that the last header names, if it names
one. -/
def openSection? (before : List Text) : Option SectionKind :=
  (before.filterMap sectionArgument?).getLast?.bind namedSection?

/-- What a line is behind other lines. -/
def role (before : List Text) (line : Text) : Role :=
  if (sectionArgument? line).isSome then .header
  else match openSection? before with
    | some kind => .member kind
    | none => .dropped

/-- Lines with what they are behind other lines. -/
def rolesAfter (before : List Text) : List Text → List (Role × Text)
  | [] => []
  | line :: rest => (role before line, line) :: rolesAfter (before ++ [line]) rest

/-- The lines of a document that are the same to its sections, in their order. -/
def linesOf (same : Role) (lines : List Text) : List Text :=
  ((rolesAfter [] lines).filter (·.1 = same)).map Prod.snd

/-- The lines of one section as a text, if there are any. -/
def sectionText? (lines : List Text) (kind : SectionKind) : Option Text :=
  match linesOf (.member kind) lines with
  | [] => none
  | own => some (Text.joinLines own)

theorem Role.mem_all (role : Role) : role ∈ all := by
  cases role with
  | header | dropped => simp [all]
  | member kind =>
    have listed := List.mem_map_of_mem (f := Role.member) kind.mem_all
    exact List.mem_cons_of_mem _ (List.mem_cons_of_mem _ listed)

theorem Role.nodup_all : all.Nodup := by
  decide

private theorem map_snd_rolesAfter (before lines : List Text) :
    (rolesAfter before lines).map Prod.snd = lines := by
  induction lines generalizing before with
  | nil => rfl
  | cons line rest ih => rw [rolesAfter, List.map_cons, ih]

private theorem linesOf_sublist (same : Role) (lines : List Text) :
    (linesOf same lines).Sublist lines := by
  have taken : ((rolesAfter [] lines).filter (·.1 = same)).Sublist (rolesAfter [] lines) :=
    List.filter_sublist
  have kept := taken.map Prod.snd
  rwa [map_snd_rolesAfter] at kept

/-- Tagged items fall apart into those of each tag. -/
theorem perm_flatMap_filter {tags : List Role} (distinct : tags.Nodup)
    (items : List (Role × Text)) (tagged : ∀ item ∈ items, item.1 ∈ tags) :
    items.Perm (tags.flatMap fun tag => items.filter (·.1 = tag)) := by
  induction tags generalizing items with
  | nil =>
    cases items with
    | nil => exact .nil
    | cons item rest => cases tagged item List.mem_cons_self
  | cons tag others ih =>
    have apart := List.filter_append_perm (fun item : Role × Text => decide (item.1 = tag)) items
    have absent := (List.nodup_cons.mp distinct).1
    have rest := ih (List.nodup_cons.mp distinct).2
      (items.filter fun item => !decide (item.1 = tag)) (by
        intro item member
        obtain ⟨present, other⟩ := List.mem_filter.mp member
        exact (List.mem_cons.mp (tagged item present)).resolve_left (by simpa using other))
    have same : (others.flatMap fun other =>
        (items.filter fun item => !decide (item.1 = tag)).filter (·.1 = other)) =
        others.flatMap fun other => items.filter (·.1 = other) := by
      refine congrArg List.flatten (List.map_congr_left fun other member => ?_)
      rw [List.filter_filter]
      refine List.filter_congr fun item _ => ?_
      by_cases here : item.1 = other
      · have differs : other ≠ tag := fun equal => absent (equal ▸ member)
        simp [here, differs]
      · simp [here]
    rw [same] at rest
    exact apart.symm.trans (rest.append_left _)

/-- No line is lost and none is taken twice. -/
theorem perm_linesOf (lines : List Text) :
    lines.Perm (Role.all.flatMap fun role => linesOf role lines) := by
  have parts := (perm_flatMap_filter Role.nodup_all (rolesAfter [] lines)
    fun item _ => item.1.mem_all).map Prod.snd
  rwa [map_snd_rolesAfter, List.map_flatMap] at parts

/-! ### Lines as they are read -/

private theorem openSection?_concat (before : List Text) (line : Text) :
    openSection? (before ++ [line]) =
      match sectionArgument? line with
      | some argument => namedSection? argument
      | none => openSection? before := by
  rw [openSection?, List.filterMap_append, List.filterMap_cons, List.filterMap_nil]
  cases sectionArgument? line with
  | some argument => rw [List.getLast?_concat]; rfl
  | none => rw [List.append_nil]; rfl

private theorem value_gather_cons (accumulators : Accumulators) (current? : Option SectionKind)
    (line : Text) (rest : List Text) :
    (gather accumulators current? (line :: rest)).value =
      match sectionArgument? line with
      | some argument => (gather accumulators (namedSection? argument) rest).value
      | none => (gather (current?.elim accumulators (accumulators.pushLine · line)) current?
          rest).value := by
  rw [gather.eq_def]
  dsimp only
  cases sectionArgument? line with
  | some argument =>
    dsimp only
    split <;> rfl
  | none => cases current? <;> rfl

/-- Reading gathers the lines of a section behind those that it has gathered before. -/
theorem gathered_gather (accumulators : Accumulators) (before lines : List Text)
    (kind : SectionKind) :
    (gather accumulators (openSection? before) lines).value.gathered kind =
      accumulators.gathered kind ++ Text.endLines
        (((rolesAfter before lines).filter (·.1 = .member kind)).map Prod.snd) := by
  -- Reading carries the open section along, and a role reads it off all lines before.
  induction lines generalizing accumulators before with
  | nil => exact (List.append_nil _).symm
  | cons line rest ih =>
    have later (accumulators : Accumulators) := ih accumulators (before ++ [line])
    rw [openSection?_concat] at later
    rw [value_gather_cons, rolesAfter, role]
    cases header : sectionArgument? line with
    | some argument =>
      rw [header] at later
      simpa using later accumulators
    | none =>
      rw [header] at later
      dsimp only at later ⊢
      rw [later]
      cases opened : openSection? before with
      | none => simp
      | some other =>
        rw [Option.elim_some, Accumulators.gathered_pushLine]
        by_cases same : other = kind
        · simp [same]
        · simp [same, Ne.symm same]

/-- A section has a text exactly if it has lines, since a line that is kept is not empty. The
newline behind the last line is trimmed, and nothing else, since a line holds none. -/
theorem text?_gather {lines : List Text} (whole : ∀ line ∈ lines, Text.Whole line)
    (kind : SectionKind) :
    (gather .empty none lines).value.text? kind = sectionText? lines kind := by
  have own : ∀ line ∈ linesOf (.member kind) lines, Text.Whole line := fun line member =>
    whole line ((linesOf_sublist _ lines).subset member)
  have gathered := gathered_gather .empty [] lines kind
  rw [Accumulators.gathered_empty, List.nil_append, ← linesOf] at gathered
  rw [Accumulators.text?, sectionText?, show none = openSection? [] from rfl, gathered,
    Text.dropTrailing_endLines own]
  cases kept : linesOf (.member kind) lines with
  | nil => rfl
  | cons first others =>
    have filled := Text.joinLines_ne_nil (kept ▸ own) (List.cons_ne_nil first others)
    simp [filled]

private theorem sectionText?_isSome (lines : List Text) (kind : SectionKind) :
    (sectionText? lines kind).isSome = true ↔ linesOf (.member kind) lines ≠ [] := by
  rw [sectionText?]
  cases linesOf (.member kind) lines <;> simp

/-! ### Definitions -/

/-- A definition whose sections are read from the lines of each, the uniforms with the structs of
the types section. -/
structure ReadFrom (lines : List Text) (definition : Definition) : Prop where
  present : ∀ kind, definition.contains kind = true ↔ linesOf (.member kind) lines ≠ []
  source : ∀ kind, definition.source? kind = sectionText? lines (.source kind)
  types : definition.types =
    (sectionText? lines .types).map fun text => (Schema.Types.ofSection text).value
  uniforms : definition.uniforms = (sectionText? lines .uniforms).map fun text =>
    (Schema.Uniforms.ofSection text (definition.types.getD .empty)).value
  state : definition.state =
    (sectionText? lines .state).map fun text => (State.ofSection text).value
  layout : definition.layout.map .ok =
    (sectionText? lines .layout).map fun text => (Vertex.Layout.ofSection text).run.value

private theorem exists_layout {text? : Option Text}
    (fits : ∀ text, text? = some text → Vertex.Layout.Fits text) :
    ∃ layout?, (text?.mapM Vertex.Layout.ofSection).run.value = .ok layout? ∧
      layout?.map .ok = text?.map fun text => (Vertex.Layout.ofSection text).run.value := by
  cases text? with
  | none => exact ⟨none, rfl, rfl⟩
  | some text =>
    obtain ⟨layout?, answered⟩ := (fits text rfl).answers
    refine ⟨some layout?, ?_, ?_⟩
    · rw [Option.mapM_some, map_eq_pure_bind, Logged.value_run_bind, answered]
      rfl
    · rw [Option.map_some, Option.map_some, answered]

/-- The definition that the sections' lines make, with a layout that has been read. -/
def ofSections (lines : List Text) (layout? : Option (Option Vertex.Layout)) : Definition :=
  let types? := (sectionText? lines .types).map fun text => (Schema.Types.ofSection text).value
  { layout := layout?
    types := types?
    state := (sectionText? lines .state).map fun text => (State.ofSection text).value
    uniforms := (sectionText? lines .uniforms).map fun text =>
      (Schema.Uniforms.ofSection text (types?.getD .empty)).value
    common := sectionText? lines (.source .common)
    vertex := sectionText? lines (.source (.stage .vertex))
    geometry := sectionText? lines (.source (.stage .geometry))
    fragment := sectionText? lines (.source (.stage .fragment))
    compute := sectionText? lines (.source (.stage .compute)) }

private theorem source?_ofSections (lines : List Text) (layout? : Option (Option Vertex.Layout))
    (kind : SourceKind) :
    (ofSections lines layout?).source? kind = sectionText? lines (.source kind) := by
  cases kind with
  | common => rfl
  | stage stage => cases stage <;> rfl

private theorem readFrom_ofSections {lines : List Text} {layout? : Option (Option Vertex.Layout)}
    (answered : layout?.map .ok =
      (sectionText? lines .layout).map fun text => (Vertex.Layout.ofSection text).run.value) :
    ReadFrom lines (ofSections lines layout?) where
  present kind := by
    rw [← sectionText?_isSome, contains]
    cases kind with
    | layout =>
      have present := congrArg Option.isSome answered
      rw [Option.isSome_map, Option.isSome_map] at present
      rw [section?, Option.isSome_map, ← present]
      rfl
    | source kind => rw [section?, Option.isSome_map, source?_ofSections]
    | types | state | uniforms =>
      rw [section?, Option.isSome_map, ofSections]
      dsimp only
      rw [Option.isSome_map]
  source := source?_ofSections lines layout?
  types := rfl
  uniforms := rfl
  state := rfl
  layout := answered

/-- Sections are read as texts of their own. -/
theorem value_ofAccumulators {lines : List Text} {accumulators : Accumulators}
    (texts : ∀ kind, accumulators.text? kind = sectionText? lines kind)
    {layout? : Option (Option Vertex.Layout)}
    (read : ((sectionText? lines .layout).mapM Vertex.Layout.ofSection).run.value = .ok layout?) :
    (ofAccumulators accumulators).run.value = .ok (ofSections lines layout?) := by
  simp only [ofAccumulators, texts, Logged.value_run_bind, Logged.value_run_mapM_liftM, read,
    ofStored_eq]
  rfl

/-- A definition is made of the sections' texts and of nothing else. -/
theorem ofAccumulators_congr {first second : Accumulators}
    (same : ∀ kind, first.text? kind = second.text? kind) :
    ofAccumulators first = ofAccumulators second := by
  rw [ofAccumulators, ofAccumulators]
  simp only [same]

private theorem value_ofDocument (document : Text) :
    (ofDocument document).run.value =
      (ofAccumulators (gather .empty none (Text.lines (Text.cleanDocument document))).value
        ).run.value := by
  rw [ofDocument, Logged.value_run_bind]
  rfl

/-- The texts that are gathered from a document. -/
theorem text?_gather_document (document : Text) (kind : SectionKind) :
    (gather .empty none (Text.lines (Text.cleanDocument document))).value.text? kind =
      sectionText? (Text.lines (Text.cleanDocument document)) kind := by
  refine text?_gather (fun line member => ?_) kind
  rw [Text.lines_cleanDocument] at member
  exact (Text.cleanLine_of_mem_cleanLines member).toWhole

/-- Reading a document neither loses nor doubles a line: each is a header, dropped, or in one
section, and the sections are read from their lines in order. So a document with the same lines in
each section, in whatever order its sections stand, has the same definition. -/
theorem readFrom_ofDocument (document : Text)
    (fits : ∀ text, sectionText? (Text.lines (Text.cleanDocument document)) .layout = some text →
      Vertex.Layout.Fits text) :
    let lines := Text.lines (Text.cleanDocument document)
    lines.Perm (Role.all.flatMap fun role => linesOf role lines) ∧
      (∀ role, (linesOf role lines).Sublist lines) ∧
      ∃ definition, (ofDocument document).run.value = .ok definition ∧ ReadFrom lines definition ∧
        ∀ other, (∀ kind, linesOf (.member kind) (Text.lines (Text.cleanDocument other)) =
          linesOf (.member kind) lines) → (ofDocument other).run.value = .ok definition := by
  intro lines
  obtain ⟨layout?, read, answered⟩ := exists_layout fits
  have whole : (ofDocument document).run.value = .ok (ofSections lines layout?) := by
    rw [value_ofDocument, value_ofAccumulators (text?_gather_document document) read]
  refine ⟨perm_linesOf lines, fun role => linesOf_sublist role lines, ofSections lines layout?,
    whole, readFrom_ofSections answered, fun other agree => ?_⟩
  have same : ∀ kind,
      (gather .empty none (Text.lines (Text.cleanDocument other))).value.text? kind =
        (gather .empty none lines).value.text? kind := by
    intro kind
    rw [text?_gather_document, text?_gather_document, sectionText?, sectionText?, agree kind]
  rw [← whole, value_ofDocument, value_ofDocument, ofAccumulators_congr same]

/-- Sections out of order, one of them in two parts, and lines outside all of them. -/
def scattered : Text :=
  Text.joinLines (["lost", "#section Uniforms", "light sun; // one of many", "", "#section vertex",
    "void main() \x7b", "#SECTION types", "struct light \x7b vec3 color; \x7d;", "#section extra",
    "lost", " # Section layout first", "vec3 at", "#section VERTEX", "\x7d"].map String.toList)

/-- The same sections, each in one part. -/
def gathered : Text :=
  Text.joinLines (["#section layout", "vec3 at", "#section types",
    "struct light \x7b vec3 color; \x7d;", "#section uniforms", "light sun;", "#section vertex",
    "void main() \x7b", "\x7d"].map String.toList)

private theorem sectionText?_scattered :
    sectionText? (Text.lines (Text.cleanDocument scattered)) .layout = some "vec3 at".toList := by
  decide +kernel

private theorem linesOf_gathered (kind : SectionKind) :
    linesOf (.member kind) (Text.lines (Text.cleanDocument gathered)) =
      linesOf (.member kind) (Text.lines (Text.cleanDocument scattered)) := by
  have agree : ∀ kind ∈ SectionKind.all,
      linesOf (.member kind) (Text.lines (Text.cleanDocument gathered)) =
        linesOf (.member kind) (Text.lines (Text.cleanDocument scattered)) := by
    decide +kernel
  exact agree kind kind.mem_all

theorem readFrom_ofDocument_scattered :
    (∀ text, sectionText? (Text.lines (Text.cleanDocument scattered)) .layout = some text →
      Vertex.Layout.Fits text) ∧
    ∃ definition, (ofDocument scattered).run.value = .ok definition ∧
      (ofDocument gathered).run.value = .ok definition ∧
      definition.vertex = some "void main() \x7b\n\x7d".toList ∧
      definition.uniforms = some ⟨[⟨"sun", .struct "light", 1⟩]⟩ ∧
      definition.contains (.source .common) = false := by
  have fits : ∀ text, sectionText? (Text.lines (Text.cleanDocument scattered)) .layout = some text →
      Vertex.Layout.Fits text := by
    intro text same group field requested available
    rw [sectionText?_scattered] at same
    cases same
    nofun
  obtain ⟨_, _, definition, read, parts, agree⟩ := readFrom_ofDocument scattered fits
  refine ⟨fits, definition, read, agree gathered linesOf_gathered, ?_, ?_, ?_⟩
  · have vertex := parts.source (.stage .vertex)
    rw [Definition.source?] at vertex
    rw [vertex]
    decide +kernel
  · rw [parts.uniforms, parts.types]
    decide +kernel
  · rw [← Bool.not_eq_true, parts.present]
    decide +kernel

end Definition
end ShaderPipeline
