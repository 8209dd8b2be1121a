import ShaderPipeline.Proofs.Macro.Course

/-! References between macros. Expansion reads of a table only the macros that the text mentions:
its own words, and the words of the values they lead to. What else is defined is never looked at. -/

namespace ShaderPipeline.Macro

open Text

/-- The value of the first macro holds the name of the second one. -/
def References (table : MacroTable) (first second : String) : Prop :=
  ∃ value, table[first]? = some value ∧ second.toList ∈ identifiers value

/-- A word, or a name that references lead to from a word. -/
def Mentions (table : MacroTable) (words : List Text) (name : String) : Prop :=
  ∃ first, first.toList ∈ words ∧ Relation.ReflTransGen (References table) first name

namespace Mentions

variable {table : MacroTable} {words : List Text} {name : String}

theorem of_mem (member : name.toList ∈ words) :
    Mentions table words name := ⟨name, member, .refl⟩

theorem of_rest {piece : Piece} {rest : List Piece}
    (mentions : Mentions table (rest.filterMap Piece.word?) name) :
    Mentions table ((piece :: rest).filterMap Piece.word?) name := by
  obtain ⟨first, member, leads⟩ := mentions
  exact ⟨first, mem_words_cons.mpr (.inr member), leads⟩

/-- Where a macro is a word, what its value mentions is mentioned. -/
theorem of_value {other : String} {value : Text}
    (mentions : Mentions table (identifiers value) other) (member : name.toList ∈ words)
    (found : table[name]? = some value) : Mentions table words other := by
  obtain ⟨first, inside, leads⟩ := mentions
  exact ⟨name, member, leads.head ⟨value, found, inside⟩⟩

/-- Names that hold the words, and with each macro the words of its value, are all there are. -/
theorem mem_of_closed (mentions : Mentions table words name) {names : List String}
    (starts : ∀ word ∈ words, String.ofList word ∈ names)
    (closed : ∀ first ∈ names, ∀ word ∈ identifiers ((table[first]?).getD []),
      String.ofList word ∈ names) : name ∈ names := by
  obtain ⟨first, member, leads⟩ := mentions
  induction leads with
  | refl => simpa using starts first.toList member
  | @tail between last _ step ih =>
    obtain ⟨value, found, inside⟩ := step
    simpa using closed between ih last.toList (by simpa [found] using inside)

end Mentions

namespace Runs

variable {table : MacroTable} {mode : Mode} {active : List String} {all : List Piece}
  {course : Course}

/-- Tables that agree on what the pieces mention have the same course. -/
theorem congr {other : MacroTable} (runs : Runs table mode active all course)
    (agree : ∀ name, Mentions table (all.filterMap Piece.word?) name →
      other[name]? = table[name]?) : Runs other mode active all course := by
  induction runs with
  | done => exact .done
  | keep stays follows ih =>
    have further := ih fun name mentions => agree name mentions.of_rest
    refine .keep ?_ further
    intro name value gives
    have same := agree name (.of_mem (mem_words_cons.mpr (.inl gives.word)))
    exact stays name value { gives with found := same.symm.trans gives.found }
  | @replace _ piece name _ rest _ _ gives inside follows ihInside ih =>
    have member : name.toList ∈ (piece :: rest).filterMap Piece.word? :=
      mem_words_cons.mpr (.inl gives.word)
    have same := agree name (.of_mem member)
    have within := ihInside fun other mentions =>
      agree other (mentions.of_value member gives.found)
    have further := ih fun name mentions => agree name mentions.of_rest
    exact .replace { gives with found := same.trans gives.found } within further

/-- The words that stay are mentioned by the pieces. -/
theorem mentions_of_mem_words (runs : Runs table mode active all course) {name : String}
    (left : name.toList ∈ course.words) : Mentions table (all.filterMap Piece.word?) name := by
  induction runs with
  | done => cases left
  | keep stays follows ih =>
    rcases List.mem_append.mp left with own | later
    · exact .of_mem (mem_words_cons.mpr (.inl (Option.mem_toList.mp own)))
    · exact (ih later).of_rest
  | replace gives inside follows ihInside ih =>
    rcases List.mem_append.mp left with within | later
    · exact (ihInside within).of_value (mem_words_cons.mpr (.inl gives.word)) gives.found
    · exact (ih later).of_rest

end Runs

/-- Expansion brings in no word that the text does not mention. -/
theorem mentions_of_mem_expand {table : MacroTable} {mode : Mode} {text : Text} {name : String}
    (left : name.toList ∈ identifiers (expand table mode text)) :
    Mentions table (identifiers text) name := by
  obtain ⟨course, runs⟩ := exists_runs table mode [] text
  rw [runs.expand_eq, runs.identifiers_text (separated_pieces text)] at left
  exact runs.mentions_of_mem_words left

/-- Expansion depends only on what the text mentions. It is the same under every table that agrees
on these names, so that to define, to change or to remove any other macro changes nothing. -/
theorem expand_depends_on_mentions (table : MacroTable) (mode : Mode) (text : Text) :
    (∀ other : MacroTable,
      (∀ name, Mentions table (identifiers text) name → other[name]? = table[name]?) →
        expand other mode text = expand table mode text) ∧
    ∀ name, ¬ Mentions table (identifiers text) name →
      (∀ value, expand (table.insert name value) mode text = expand table mode text) ∧
        expand (table.erase name) mode text = expand table mode text := by
  have same (other : MacroTable)
      (agree : ∀ name, Mentions table (identifiers text) name → other[name]? = table[name]?) :
      expand other mode text = expand table mode text := by
    obtain ⟨course, runs⟩ := exists_runs table mode [] text
    rw [runs.expand_eq, (runs.congr agree).expand_eq]
  refine ⟨same, fun name unmentioned => ⟨fun value => ?_, ?_⟩⟩
  · apply same
    intro other mentions
    have different : name ≠ other := fun equal => unmentioned (equal ▸ mentions)
    simp [Std.TreeMap.getElem?_insert, different]
  · apply same
    intro other mentions
    have different : name ≠ other := fun equal => unmentioned (equal ▸ mentions)
    simp [Std.TreeMap.getElem?_erase, different]

/-- Two macros that refer to each other, and one that refers to both. -/
def knot : MacroTable :=
  (({} : MacroTable).insert "A" "B 2".toList).insert "B" "A C".toList |>.insert "D" "A + B".toList

/-- The two alone, in the other order. -/
def pair : MacroTable := (({} : MacroTable).insert "B" "A C".toList).insert "A" "B 2".toList

theorem expand_depends_on_mentions_knot :
    ¬ Mentions knot (identifiers "A".toList) "D" ∧
      (∀ value, expand (knot.insert "D" value) .all "A".toList = "A C 2".toList) ∧
      expand (knot.erase "D") .all "A".toList = "A C 2".toList ∧
      expand pair .all "A".toList = "A C 2".toList := by
  have names {name : String} (mentions : Mentions knot (identifiers "A".toList) name) :
      name ∈ ["A", "B", "C"] :=
    mentions.mem_of_closed (by decide +kernel) (by decide +kernel)
  have unmentioned : ¬ Mentions knot (identifiers "A".toList) "D" := fun mentions =>
    absurd (names mentions) (by decide)
  have expanded : expand knot .all "A".toList = "A C 2".toList := by decide +kernel
  obtain ⟨same, changed⟩ := expand_depends_on_mentions knot .all "A".toList
  obtain ⟨inserted, erased⟩ := changed "D" unmentioned
  refine ⟨unmentioned, fun value => (inserted value).trans expanded, erased.trans expanded, ?_⟩
  refine (same pair ?_).trans expanded
  intro name mentions
  have agree : ∀ name ∈ ["A", "B", "C"], pair[name]? = knot[name]? := by decide +kernel
  exact agree name (names mentions)

end ShaderPipeline.Macro
