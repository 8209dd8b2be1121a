import ShaderPipeline.Macro.Expansion

/-! Macro expansion piece by piece, and what it leaves alone. -/

namespace ShaderPipeline.Macro

open Text

/-- A piece gives way to the value of a macro that takes part and that is not active. -/
structure Replaces (table : MacroTable) (mode : Mode) (active : List String) (piece : Piece)
    (name : String) (value : Text) : Prop where
  word : piece.word? = some name.toList
  idle : name ∉ active
  found : table[name]? = some value
  expands : mode.expands value = true

/-- What expansion makes of one piece. -/
def expandPiece (table : MacroTable) (mode : Mode) (active : List String) (piece : Piece) : Text :=
  (piece.word?.bind fun word =>
    let name := String.ofList word
    if name ∈ active then none
    else (table[name]?).bind fun value =>
      if mode.expands value then some (expandInside table mode (name :: active) value)
      else none).getD piece.text

/-- A macro that is replaced wherever it is not active. -/
def Expandable (table : MacroTable) (mode : Mode) (name : String) : Prop :=
  ∃ value, table[name]? = some value ∧ mode.expands value = true

section

variable {table : MacroTable} {mode : Mode} {active : List String} {piece : Piece}

theorem Replaces.unique {name other : String} {value another : Text}
    (gives : Replaces table mode active piece name value)
    (again : Replaces table mode active piece other another) : other = name ∧ another = value := by
  have same : other = name :=
    String.toList_injective (Option.some.inj (again.word.symm.trans gives.word))
  exact ⟨same, Option.some.inj (again.found.symm.trans (same ▸ gives.found))⟩

theorem Replaces.expandPiece_eq {name : String} {value : Text}
    (gives : Replaces table mode active piece name value) :
    expandPiece table mode active piece = expandInside table mode (name :: active) value := by
  simp [expandPiece, gives.word, gives.idle, gives.found, gives.expands]

theorem expandPiece_of_stays (stays : ∀ name value, ¬ Replaces table mode active piece name value) :
    expandPiece table mode active piece = piece.text := by
  suffices none : (piece.word?.bind _) = none by rw [expandPiece, none]; rfl
  refine Option.bind_eq_none_iff.mpr fun word holds => ?_
  dsimp only
  split
  next => rfl
  next idle =>
    refine Option.bind_eq_none_iff.mpr fun value found => if_neg fun expands => ?_
    exact stays (String.ofList word) value ⟨by simpa using holds, idle, found, expands⟩

theorem expandInside_eq_flatMap (text : Text) :
    expandInside table mode active text =
      (pieces text).flatMap (expandPiece table mode active) := by
  unfold expandInside
  refine congrArg (List.flatMap · (pieces text)) (funext fun piece => ?_)
  unfold expandPiece
  congr 2
  funext word
  dsimp only
  split
  next => rfl
  next => split <;> simp_all

/-- A text of which every piece stays is its own expansion. -/
theorem expandInside_eq_self {text : Text}
    (stays : ∀ piece ∈ pieces text, ∀ name value, ¬ Replaces table mode active piece name value) :
    expandInside table mode active text = text := by
  calc expandInside table mode active text
      = ((pieces text).map (expandPiece table mode active)).flatten := by
        rw [expandInside_eq_flatMap, List.flatMap_def]
    _ = ((pieces text).map Piece.text).flatten :=
        congrArg List.flatten
          (List.map_congr_left fun piece member => expandPiece_of_stays (stays piece member))
    _ = text := by rw [← List.flatMap_def, flatMap_text_pieces]

end

/-- A text without expandable macros is its own expansion. -/
theorem expand_of_settled {table : MacroTable} {mode : Mode} {text : Text}
    (settled : ∀ name, name.toList ∈ identifiers text → ¬ Expandable table mode name) :
    expand table mode text = text := by
  refine expandInside_eq_self fun piece member name value gives => ?_
  have word : name.toList ∈ identifiers text := List.mem_filterMap.mpr ⟨piece, member, gives.word⟩
  exact settled name word ⟨value, gives.found, gives.expands⟩

/-- A text without words is its own expansion. -/
theorem expand_of_wordless {text : Text}
    (wordless : ∀ piece ∈ Text.pieces text, piece.word? = none) (table : MacroTable)
    (mode : Mode) : expand table mode text = text := by
  refine expandInside_eq_self fun piece member name value gives => ?_
  cases (wordless piece member).symm.trans gives.word

/-- Without macros a text is its own expansion. To answer at once for an empty table would change
nothing. -/
theorem expand_of_isEmpty {table : MacroTable} (none : table.isEmpty = true) (mode : Mode)
    (text : Text) : expand table mode text = text := by
  refine expandInside_eq_self fun piece _ name value gives => ?_
  cases (Std.TreeMap.getElem?_of_isEmpty none).symm.trans gives.found

end ShaderPipeline.Macro
