import ShaderPipeline.Proofs.Macro.References

/-! What expansion leaves of macros. The names that are active lead to every word of the value that
is being expanded, so that a macro that stays because it is active lies on a cycle of references. A
text that leads into no cycle is expanded to the end. -/

namespace ShaderPipeline.Macro

open Text

/-- The macro leads back to itself, alone or by way of others. -/
def OnCycle (table : MacroTable) (name : String) : Prop :=
  Relation.TransGen (References table) name name

private theorem expands_of_mem_identifiers {value word : Text} (member : word ∈ identifiers value)
    (mode : Mode) : mode.expands value = true := by
  cases mode with
  | all => rfl
  | nonEmpty =>
    cases value with
    | nil => cases member
    | cons c rest => rfl

/-- A macro with references takes part in every mode. -/
theorem References.expandable {table : MacroTable} {first second : String}
    (references : References table first second) (mode : Mode) : Expandable table mode first := by
  obtain ⟨value, found, member⟩ := references
  exact ⟨value, found, expands_of_mem_identifiers member mode⟩

/-- Where references fall in rank, there are no cycles. -/
theorem not_onCycle_of_rank {table : MacroTable} (rank : String → Nat)
    (falls : ∀ first ∈ table.keys, ∀ word ∈ identifiers ((table[first]?).getD []),
      rank (String.ofList word) < rank first) (name : String) : ¬ OnCycle table name := by
  intro cycle
  have lower {first second : String} (references : References table first second) :
      rank second < rank first := by
    obtain ⟨value, found, member⟩ := references
    have defined := Std.TreeMap.mem_keys.mpr (mem_of_found found)
    simpa using falls first defined second.toList (by simpa [found] using member)
  have further {last : String} (leads : Relation.TransGen (References table) name last) :
      rank last < rank name := by
    induction leads with
    | single step => exact lower step
    | tail _ step ih => exact Nat.lt_trans (lower step) ih
  exact Nat.lt_irrefl _ (further cycle)

namespace Runs

variable {table : MacroTable} {mode : Mode} {active : List String} {all : List Piece}
  {course : Course}

/-- A word that stays, though it could be expanded, is active. The active names lead to it, so that
it leads to itself. -/
theorem onCycle (runs : Runs table mode active all course)
    (leads : ∀ outer ∈ active, ∀ name, name.toList ∈ all.filterMap Piece.word? →
      Relation.TransGen (References table) outer name) {name : String}
    (left : name.toList ∈ course.words) (expandable : Expandable table mode name) :
    OnCycle table name := by
  induction runs with
  | done => cases left
  | @keep active _ _ _ stays follows ih =>
    rcases List.mem_append.mp left with own | later
    · have word := Option.mem_toList.mp own
      obtain ⟨value, found, expands⟩ := expandable
      have inside : name ∈ active := by
        by_contra idle
        exact stays name value ⟨word, idle, found, expands⟩
      exact leads name inside name (mem_words_cons.mpr (.inl word))
    · apply ih _ later
      intro outer member other word
      exact leads outer member other (mem_words_cons.mpr (.inr word))
  | @replace _ _ own value _ _ _ gives inside follows ihInside ih =>
    rcases List.mem_append.mp left with within | later
    · -- The replaced name becomes active, and whatever leads to it leads on to its value.
      apply ihInside _ within
      intro outer member other word
      have step : References table own other := ⟨value, gives.found, word⟩
      rcases List.mem_cons.mp member with rfl | before
      · exact .single step
      · exact (leads outer before own (mem_words_cons.mpr (.inl gives.word))).tail step
    · apply ih _ later
      intro outer member other word
      exact leads outer member other (mem_words_cons.mpr (.inr word))

/-- Where no macro is left, every way along references from the pieces ends. -/
theorem acc_of_settled (runs : Runs table mode active all course)
    (settled : ∀ name, name.toList ∈ course.words → ¬ Expandable table mode name) {name : String}
    (member : name.toList ∈ all.filterMap Piece.word?) :
    Acc (Function.swap (References table)) name := by
  induction runs generalizing name with
  | done => cases member
  | keep stays follows ih =>
    rcases mem_words_cons.mp member with word | later
    · have final := settled name (List.mem_append_left _ (Option.mem_toList.mpr word))
      exact .intro name fun other step => absurd (step.expandable mode) final
    · exact ih (fun other left => settled other (List.mem_append_right _ left)) later
  | replace gives inside follows ihInside ih =>
    rcases mem_words_cons.mp member with word | later
    · obtain rfl := String.toList_injective (Option.some.inj (word.symm.trans gives.word))
      apply Acc.intro
      rintro other ⟨value, found, within⟩
      obtain rfl := Option.some.inj (found.symm.trans gives.found)
      exact ihInside (fun other left => settled other (List.mem_append_left _ left)) within
    · exact ih (fun other left => settled other (List.mem_append_right _ left)) later

end Runs

section

variable {table : MacroTable} {mode : Mode} {text : Text}

private theorem onCycle_of_left {name : String}
    (left : name.toList ∈ identifiers (expand table mode text))
    (expandable : Expandable table mode name) : OnCycle table name := by
  obtain ⟨course, runs⟩ := exists_runs table mode [] text
  rw [runs.expand_eq, runs.identifiers_text (separated_pieces text)] at left
  exact runs.onCycle (fun outer absent => (nomatch absent)) left expandable

/-- Expansion leaves an expandable macro if and only if the text mentions one that lies on a
cycle. -/
theorem expand_leaves_iff :
    (∃ name, name.toList ∈ identifiers (expand table mode text) ∧ Expandable table mode name) ↔
      ∃ name, Mentions table (identifiers text) name ∧ OnCycle table name := by
  constructor
  · rintro ⟨name, left, expandable⟩
    exact ⟨name, mentions_of_mem_expand left, onCycle_of_left left expandable⟩
  · rintro ⟨name, ⟨first, member, leads⟩, cycle⟩
    by_contra none
    obtain ⟨course, runs⟩ := exists_runs table mode [] text
    rw [runs.expand_eq, runs.identifiers_text (separated_pieces text)] at none
    have ends := runs.acc_of_settled (fun other left could => none ⟨other, left, could⟩) member
    exact not_cycle_of_acc ends leads cycle

end

/-- Expansion is exact about cycles. It ends for every table: the text takes exactly one course, and
no more names are active at once than there are macros. An expandable macro that is left lies on a
cycle of references. Hence a table without cycles leaves none, and a second expansion has nothing
to do. -/
theorem expand_leaves_cycles (table : MacroTable) (mode : Mode) (text : Text) :
    (∃ course, Runs table mode [] (pieces text) course ∧
      (∀ other, Runs table mode [] (pieces text) other → other = course) ∧
      expand table mode text = course.text ∧
      ∀ active ∈ course.chains [],
        active.Nodup ∧ (∀ name ∈ active, name ∈ table) ∧ active.length ≤ table.size) ∧
    (∀ name, name.toList ∈ identifiers (expand table mode text) → Expandable table mode name →
      OnCycle table name) ∧
    ((∀ name, ¬ OnCycle table name) →
      (∀ name, name.toList ∈ identifiers (expand table mode text) →
        ¬ Expandable table mode name) ∧
      expand table mode (expand table mode text) = expand table mode text) := by
  refine ⟨?_, fun name => onCycle_of_left, fun acyclic => ?_⟩
  · obtain ⟨course, runs⟩ := exists_runs table mode [] text
    refine ⟨course, runs, fun other again => runs.unique again, runs.expand_eq, ?_⟩
    intro active member
    have none : ∀ name ∈ ([] : List String), name ∈ table := fun _ absent => (nomatch absent)
    obtain ⟨nodup, defined⟩ := runs.chains_defined List.nodup_nil none active member
    exact ⟨nodup, defined, length_le_size_of_nodup nodup defined⟩
  · have settled (name : String) (left : name.toList ∈ identifiers (expand table mode text)) :
        ¬ Expandable table mode name := by
      intro expandable
      exact acyclic name (onCycle_of_left left expandable)
    exact ⟨settled, expand_of_settled settled⟩

/-- Two macros that lead to each other, and an empty one. -/
def loop : MacroTable :=
  (({} : MacroTable).insert "A" "B".toList).insert "B" "-A".toList |>.insert "E" []

/-- A macro whose value holds another one twice. -/
def double : MacroTable :=
  (({} : MacroTable).insert "Y" "X + X".toList).insert "X" "2".toList

theorem expand_leaves_cycles_loop :
    expand loop .nonEmpty "A E".toList = "-A E".toList ∧ OnCycle loop "A" ∧
      ¬ Expandable loop .nonEmpty "E" ∧ (∀ name, ¬ OnCycle double name) ∧
      expand double .all "Y Z".toList = "2 + 2 Z".toList ∧
      expand double .all "2 + 2 Z".toList = "2 + 2 Z".toList := by
  have left : expand loop .nonEmpty "A E".toList = "-A E".toList := by decide +kernel
  have cycle : OnCycle loop "A" := by
    apply (expand_leaves_cycles loop .nonEmpty "A E".toList).2.1
    · rw [left]
      decide +kernel
    · exact ⟨"B".toList, by decide +kernel, rfl⟩
  have empty : ¬ Expandable loop .nonEmpty "E" := by
    rintro ⟨value, found, expands⟩
    have none : loop["E"]? = some [] := by decide +kernel
    obtain rfl := Option.some.inj (none.symm.trans found)
    cases expands
  have acyclic : ∀ name, ¬ OnCycle double name :=
    not_onCycle_of_rank (fun name => if name = "Y" then 1 else 0) (by decide +kernel)
  have expanded : expand double .all "Y Z".toList = "2 + 2 Z".toList := by decide +kernel
  have again := ((expand_leaves_cycles double .all "Y Z".toList).2.2 acyclic).2
  rw [expanded] at again
  exact ⟨left, cycle, empty, acyclic, expanded, again⟩

end ShaderPipeline.Macro
