import ShaderPipeline.Proofs.Active
import ShaderPipeline.Proofs.Macro.Expansion
import ShaderPipeline.Proofs.Text.Pieces

/-! The course of a macro expansion: which pieces stay and which give way to a value, in the text
and in each value on the way. Every text has exactly one course, so that expansion ends, and no
macro is active twice on it. What a value leaves stands between marks, where the word stood that it
replaces, so the words of the result are those that stay. -/

namespace ShaderPipeline.Macro

open Text

/-- What becomes of pieces in order. A replacement holds the course of the value. -/
inductive Course where
  | done
  | keep (piece : Piece) (rest : Course)
  | replace (name : String) (inside rest : Course)

namespace Course

/-- The text that is left in the end. -/
def text : Course → Text
  | done => []
  | keep piece rest => piece.text ++ rest.text
  | replace _ inside rest => inside.text ++ rest.text

/-- The words that stay. -/
def words : Course → List Text
  | done => []
  | keep piece rest => piece.word?.toList ++ rest.words
  | replace _ inside rest => inside.words ++ rest.words

/-- The active macros of each call, of a course that is taken inside `active`. -/
def chains (active : List String) : Course → List (List String)
  | done => [active]
  | keep _ rest => rest.chains active
  | replace name inside rest => inside.chains (name :: active) ++ rest.chains active

end Course

/-- The course that pieces take inside the values of the `active` macros. No bound on the recursion
is part of it. -/
inductive Runs (table : MacroTable) (mode : Mode) : List String → List Piece → Course → Prop
  | done {active : List String} : Runs table mode active [] .done
  | keep {active : List String} {piece : Piece} {rest : List Piece} {course : Course}
      (stays : ∀ name value, ¬ Replaces table mode active piece name value)
      (follows : Runs table mode active rest course) :
      Runs table mode active (piece :: rest) (.keep piece course)
  | replace {active : List String} {piece : Piece} {name : String} {value : Text}
      {rest : List Piece} {inner course : Course}
      (gives : Replaces table mode active piece name value)
      (inside : Runs table mode (name :: active) (pieces value) inner)
      (follows : Runs table mode active rest course) :
      Runs table mode active (piece :: rest) (.replace name inner course)

/-- Whatever the table refers to, the pieces of a text take a course that ends. -/
theorem exists_runs (table : MacroTable) (mode : Mode) (active : List String) (text : Text) :
    ∃ course, Runs table mode active (pieces text) course := by
  induction active, text using expandInside.induct table with
  | case1 active text inside =>
    generalize pieces text = all
    induction all with
    | nil => exact ⟨_, .done⟩
    | cons piece rest ih =>
      obtain ⟨course, follows⟩ := ih
      by_cases replaced : ∃ name value, Replaces table mode active piece name value
      · obtain ⟨name, value, gives⟩ := replaced
        obtain ⟨inner, within⟩ := inside name.toList
          (by simpa using gives.idle) value (by simpa using gives.found)
        rw [String.ofList_toList] at within
        exact ⟨_, .replace gives within follows⟩
      · exact ⟨_, .keep (fun name value gives => replaced ⟨name, value, gives⟩) follows⟩

namespace Runs

variable {table : MacroTable} {mode : Mode} {active : List String} {all : List Piece}
  {course : Course}

theorem unique (runs : Runs table mode active all course) {other : Course}
    (again : Runs table mode active all other) : other = course := by
  induction runs generalizing other with
  | done =>
    cases again
    rfl
  | keep stays follows ih =>
    cases again with
    | keep _ others => rw [ih others]
    | replace gives => exact absurd gives (stays _ _)
  | replace gives inside follows ihInside ih =>
    cases again with
    | keep stays _ => exact absurd gives (stays _ _)
    | replace also within others =>
      obtain ⟨rfl, rfl⟩ := gives.unique also
      rw [ihInside within, ih others]

theorem text_eq (runs : Runs table mode active all course) :
    all.flatMap (expandPiece table mode active) = course.text := by
  induction runs with
  | done => rfl
  | keep stays follows ih => rw [List.flatMap_cons, expandPiece_of_stays stays, ih, Course.text]
  | replace gives inside follows ihInside ih =>
    rw [List.flatMap_cons, gives.expandPiece_eq, expandInside_eq_flatMap, ihInside, ih, Course.text]

theorem expand_eq {text : Text} (runs : Runs table mode [] (pieces text) course) :
    expand table mode text = course.text := by
  rw [expand, expandInside_eq_flatMap, runs.text_eq]

/-- Each call inside different macros of the table is one inside different macros of the table. -/
theorem chains_defined (runs : Runs table mode active all course) (nodup : active.Nodup)
    (defined : ∀ name ∈ active, name ∈ table) :
    ∀ chain ∈ course.chains active, chain.Nodup ∧ ∀ name ∈ chain, name ∈ table := by
  induction runs with
  | done =>
    rintro chain member
    obtain rfl := List.mem_singleton.mp member
    exact ⟨nodup, defined⟩
  | keep stays follows ih => exact ih nodup defined
  | replace gives inside follows ihInside ih =>
    have longer := List.nodup_cons.mpr ⟨gives.idle, nodup⟩
    have within := List.forall_mem_cons.mpr ⟨mem_of_found gives.found, defined⟩
    exact List.forall_mem_append.mpr ⟨ihInside longer within, ih nodup defined⟩

/-- Where the pieces start with a mark, so does what is left of them. -/
theorem head_text (runs : Runs table mode active all course) (separated : Separated all)
    (apart : ∀ next ∈ all.head?, ∃ c, next = .mark c) :
    ∀ c ∈ course.text.head?, isWordChar c = false := by
  cases runs with
  | done => exact fun _ absent => (nomatch absent)
  | @keep _ piece rest course stays follows =>
    obtain ⟨c, rfl⟩ := apart piece rfl
    rintro other starts
    obtain rfl : c = other := Option.some.inj starts
    exact separated.1
  | @replace _ piece _ _ _ _ _ gives inside follows =>
    obtain ⟨c, rfl⟩ := apart piece rfl
    cases gives.word

/-- Replacement joins no words: the words of the text that is left are the words that stay. -/
theorem identifiers_text (runs : Runs table mode active all course) (separated : Separated all) :
    identifiers course.text = course.words := by
  induction runs with
  | done => rfl
  | @keep _ piece rest course stays follows ih =>
    cases piece with
    | mark c =>
      obtain ⟨mark, others⟩ := separated
      rw [Course.text, Piece.text, List.singleton_append, identifiers_cons_mark mark, ih others]
      rfl
    | run text =>
      obtain ⟨⟨filled, letters⟩, apart, others⟩ := separated
      rw [Course.text, identifiers_append (follows.head_text others apart), ih others, Piece.text,
        identifiers_of_run filled letters, Course.words]
  | @replace _ piece name value rest inner course gives inside follows ihInside ih =>
    cases piece with
    | mark c => cases gives.word
    | run text =>
      obtain ⟨_, apart, others⟩ := separated
      rw [Course.text, identifiers_append (follows.head_text others apart),
        ihInside (separated_pieces value), ih others, Course.words]

end Runs

end ShaderPipeline.Macro
