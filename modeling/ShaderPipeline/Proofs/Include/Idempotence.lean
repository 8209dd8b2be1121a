import ShaderPipeline.Proofs.Include.FixedTexts
import ShaderPipeline.Proofs.Include.Seams

/-! Expansion of what expansion answers. A second pass takes a text without include lines apart and
puts it together again, which changes it exactly where a line ends in a carriage return or the last
line has no code. -/

namespace ShaderPipeline

namespace Text

/-- A text ends in something else than a newline exactly when its last line is not empty. -/
theorem any_getLast?_joinLines_concat (lines : List Text) {last : Text} (single : '\n' ∉ last) :
    (joinLines (lines ++ [last])).getLast?.any (· ≠ '\n') = true ↔ last ≠ [] := by
  by_cases filled : last = []
  · subst filled
    by_cases none : lines = []
    · subst none
      simp [joinLines]
    · simp [joinLines_concat none]
  · have ends := List.getLast?_eq_some_getLast filled
    have other : last.getLast filled ≠ '\n' := fun same => single (same ▸ List.getLast_mem filled)
    simp [getLast?_joinLines_concat lines filled, ends, other, filled]

private theorem eq_joinLines_concat {text : Text} {before : List Text} {last : Text}
    (pieces : splitEvery '\n' text = before ++ [last]) : text = joinLines (before ++ [last]) := by
  rw [← pieces]
  exact (intercalate_splitEvery '\n' text).symm

/-- The last line of a text that ends in something else than a newline ends in it too. -/
theorem getLast?_splitEvery {text : Text} {c : Char} (other : c ≠ '\n')
    (last : text.getLast? = some c) :
    ∃ before line, splitEvery '\n' text = before ++ [line] ∧ line.getLast? = some c := by
  obtain ⟨before, line, pieces⟩ := exists_splitEvery_eq text
  refine ⟨before, line, pieces, ?_⟩
  have whole : text = joinLines (before ++ [line]) := eq_joinLines_concat pieces
  by_cases filled : line = []
  · subst filled
    rw [whole] at last
    by_cases none : before = []
    · subst none
      cases last
    · rw [joinLines_concat none, List.getLast?_concat] at last
      exact absurd (Option.some.inj last).symm other
  · rw [← getLast?_joinLines_concat before filled, ← whole, last]

/-- A newline behind a carriage return is the end of a line with one. -/
theorem infix_return_iff {text : Text} {before : List Text} {last : Text}
    (pieces : splitEvery '\n' text = before ++ [last]) :
    ['\r', '\n'] <:+: text ↔ ∃ line ∈ before, line.getLast? = some '\r' := by
  constructor
  · rintro ⟨start, rest, rfl⟩
    obtain ⟨earlier, line, ended, mark⟩ :=
      getLast?_splitEvery (by decide) (List.getLast?_concat (l := start) (a := '\r'))
    obtain ⟨others, final, more⟩ := exists_splitEvery_eq rest
    have split : start ++ ['\r', '\n'] ++ rest = (start ++ ['\r']) ++ '\n' :: rest := by simp
    rw [split, splitEvery_append_cons, ended, more, ← List.append_assoc] at pieces
    obtain ⟨rfl, _⟩ := List.append_inj' pieces rfl
    exact ⟨line, by simp, mark⟩
  · rintro ⟨line, member, mark⟩
    obtain ⟨earlier, others, rfl⟩ := List.append_of_mem member
    have whole : text = joinLines ((earlier ++ [line]) ++ (others ++ [last])) := by
      rw [eq_joinLines_concat pieces]
      simp
    have filled : line ≠ [] := by
      rintro rfl
      cases mark
    have ends := (getLast?_joinLines_concat earlier filled).trans mark
    obtain ⟨start, ended⟩ := List.getLast?_eq_some_iff.mp ends
    rw [whole, joinLines_append (by simp) (by simp), ended]
    exact ⟨start, joinLines (others ++ [last]), by simp⟩

section Pieces

variable {text : Text} {before : List Text} {last : Text}
  (pieces : splitEvery '\n' text = before ++ [last])

include pieces

/-- Without a newline behind a carriage return, no line loses one. -/
theorem not_infix_return_iff :
    ¬ ['\r', '\n'] <:+: text ↔ before.map dropReturn = before := by
  have same : before.map dropReturn = before ↔ ∀ line ∈ before, dropReturn line = line := by
    conv => lhs; rhs; rw [← List.map_id before]
    exact List.map_inj_left
  simp [infix_return_iff pieces, same, dropReturn_eq_self_iff]

/-- The text without comments ends in something else than a newline exactly when the last line has
code. -/
theorem any_getLast?_stripComments :
    (stripComments text).getLast?.any (· ≠ '\n') = true ↔
      (CommentState.code.afterLines before).stripped last ≠ [] := by
  have codes := splitEvery_stripped .code text
  rw [pieces, codesFrom_append] at codes
  have member : last ∈ splitEvery '\n' text := by simp [pieces]
  have single := notMem_of_mem_splitEvery member
  have singleCode : '\n' ∉ (CommentState.code.afterLines before).stripped last := by
    rw [← List.count_eq_zero, CommentState.count_stripped]
    exact List.count_eq_zero.mpr single
  rw [stripComments_eq, eq_joinLines_concat codes, any_getLast?_joinLines_concat _ singleCode]

end Pieces

/-- A text that is read back as it was put together: no line but the last ends in a carriage return,
and the last line has code, unless the text is empty. -/
structure Settled (text : Text) : Prop where
  returns : ¬ ['\r', '\n'] <:+: text
  ended : text = [] ∨ (stripComments text).getLast?.any (· ≠ '\n') = true

end Text

namespace Include

open Text

private theorem map_fst_pairsFrom_concat (state : CommentState) (before : List Text) (last : Text) :
    (pairsFrom state (before ++ [last])).map Prod.fst = before.map dropReturn ++
      if (state.afterLines before).stripped last = [] then [] else [last] := by
  induction before generalizing state with
  | nil =>
    rw [List.nil_append, pairsFrom, CommentState.afterLines, List.foldl_nil, List.map_nil,
      List.nil_append]
    by_cases empty : state.stripped last = [] <;> simp [empty]
  | cons line rest ih =>
    obtain ⟨next, others, same⟩ := List.exists_cons_of_ne_nil (show rest ++ [last] ≠ [] by simp)
    have follows := ih (state.afterLine line)
    rw [same] at follows
    rw [List.cons_append, same, pairsFrom, List.map_cons, follows]
    rfl

/-- A text is read back as it is exactly when it is settled. -/
theorem resolved_eq_iff (text : Text) : resolved text = text ↔ Settled text := by
  obtain ⟨before, last, pieces⟩ := exists_splitEvery_eq text
  have whole := eq_joinLines_concat pieces
  have clean := not_infix_return_iff pieces
  have ended := any_getLast?_stripComments pieces
  have kept := map_fst_pairsFrom_concat .code before last
  rw [← pieces, ← linesWithCode_eq] at kept
  have single : ∀ line ∈ before ++ [last], '\n' ∉ line := fun line member =>
    notMem_of_mem_splitEvery (pieces ▸ member)
  have shortened : ∀ line ∈ before.map dropReturn, '\n' ∉ line :=
    List.forall_mem_map.mpr fun line member inside =>
      single line (List.mem_append_left _ member) ((dropReturn_starts line).subset inside)
  rw [resolved, ownLines, kept]
  by_cases none : (CommentState.code.afterLines before).stripped last = []
  · rw [if_pos none, List.append_nil]
    constructor
    · intro same
      by_cases first : before = []
      · rw [first] at same
        rw [← same]
        exact ⟨by simp [joinLines], .inl rfl⟩
      · -- The last line is lost, and the lines before it cannot make up for it.
        rw [whole, joinLines_inj (by simpa using first) (by simp) shortened single] at same
        have lengths := congrArg List.length same
        simp at lengths
    · rintro ⟨_, empty | some⟩
      · rw [empty] at pieces ⊢
        have alone : before = [] := by simpa [splitEvery] using congrArg List.length pieces
        rw [alone]
        rfl
      · exact absurd none (ended.mp some)
  · rw [if_neg none]
    have alsoSingle : ∀ line ∈ before.map dropReturn ++ [last], '\n' ∉ line :=
      List.forall_mem_append.mpr ⟨shortened, by simpa using single last (by simp)⟩
    have same : joinLines (before.map dropReturn ++ [last]) = text ↔
        before.map dropReturn = before := by
      rw [whole, joinLines_inj (by simp) (by simp) alsoSingle single, List.append_left_inj]
    rw [same, ← clean]
    exact ⟨fun returns => ⟨returns, .inr (ended.mpr none)⟩, Settled.returns⟩

/-- When every splice is seamless and no marker leaves a comment open, the answer has no include
lines. -/
theorem Unfolds.plain_expand {source : Text} {registry : Registry} {kept : List (Text × Text)}
    (unfolds : Unfolds (fun problem => Closed problem.marker) registry.providers []
      (linesWithCode source) kept)
    (outside : SplicesOutside .code (linesWithCode source))
    (texts : ∀ (name : String) (text : Text), registry.providers[name]? = some (.fixed text) →
      Seamless text) : Plain (expand source registry).value.1 := by
  obtain ⟨own, _⟩ := unfolds.ownCodes (fun _ closed => closed) texts outside
    (ownCodes_linesWithCode source)
  have single : ∀ line ∈ kept.map Prod.fst, '\n' ∉ line :=
    List.forall_mem_map.mpr fun pair member =>
      (unfolds.single (single_linesWithCode source) pair member).1
  have pieces : ∀ piece ∈ codesFrom .code (kept.map Prod.fst), LineKind.ofLine piece = .plain := by
    intro piece member
    have shown : trim piece ∈ (kept.map Prod.snd).map trim := own ▸ List.mem_map_of_mem member
    rw [List.map_map] at shown
    obtain ⟨pair, present, same⟩ := List.mem_map.mp shown
    rw [← LineKind.ofLine_congr same]
    exact unfolds.plain pair present
  rw [unfolds.value_expand]
  by_cases none : kept = []
  · rw [none]
    exact fun _ absent => (List.not_mem_nil absent).elim
  · intro code member
    rw [Text.lines, stripComments_eq, splitEvery_stripped,
      splitEvery_joinLines (by simpa using none) single] at member
    obtain ⟨piece, present, same⟩ := exists_piece member
    rw [LineKind.ofLine_congr same]
    exact pieces piece present

/-- A second pass over an answer without include lines answers the same exactly when the answer is
settled. Seamless splices and markers leave no include lines. -/
theorem expand_expand_iff (source : Text) (registry : Registry) :
    let once := (expand source registry).value.1
    (Plain once → ∀ again : Registry, (expand once again).value.1 = once ↔ Settled once) ∧
    ∀ kept, Unfolds (fun problem => Closed problem.marker) registry.providers []
        (linesWithCode source) kept →
      SplicesOutside .code (linesWithCode source) →
      (∀ (name : String) (text : Text), registry.providers[name]? = some (.fixed text) →
        Seamless text) → Plain once := by
  intro once
  refine ⟨fun plain again => ?_, fun kept unfolds outside texts =>
    unfolds.plain_expand outside texts⟩
  rw [value_expand plain, resolved_eq_iff]

def includingText : Text := "#include <b> // b\na".toList

def resolvedTexts : List (String × Text) := [("a", includingText), ("b", ['b'])]

/-- A source that includes a text, and one that there is not. -/
def resolvedSource : Text := "#include \"a\"\n#include \"c\"".toList

private theorem unfolds_resolvedSource : ∃ kept, Unfolds (fun problem => Closed problem.marker)
    (Registry.ofTexts resolvedTexts).providers [] (linesWithCode resolvedSource) kept ∧
      joinLines (kept.map Prod.fst) = "b\na\n#error Unable to locate include: c".toList := by
  have fixed := Registry.fixed_ofTexts resolvedTexts
  have outer : (Registry.ofTexts resolvedTexts).providers["a"]? = some (.fixed includingText) :=
    fixed.provider_eq (by decide +kernel)
  have inner : (Registry.ofTexts resolvedTexts).providers["b"]? = some (.fixed ['b']) :=
    fixed.provider_eq (by decide +kernel)
  have absent : (Registry.ofTexts resolvedTexts).providers["c"]? = none := by
    cases found : (Registry.ofTexts resolvedTexts).providers["c"]? with
    | none => rfl
    | some provider =>
      obtain ⟨text, member, _⟩ := Registry.mem_of_ofTexts found
      simp [resolvedTexts] at member
  have sourceLines : linesWithCode resolvedSource =
      [("#include \"a\"".toList, "#include \"a\"".toList),
        ("#include \"c\"".toList, "#include \"c\"".toList)] := by decide +kernel
  have outerLines : linesWithCode includingText =
      [("#include <b> // b".toList, "#include <b> ".toList), (['a'], ['a'])] := by decide +kernel
  have inside : Unfolds (fun problem => Closed problem.marker)
      (Registry.ofTexts resolvedTexts).providers ["a"] (linesWithCode includingText)
        (linesWithCode ['b'] ++ [(['a'], ['a'])]) := by
    rw [outerLines]
    exact .splice (by decide +kernel) (by decide) inner
      (Plain.unfolds (by decide +kernel) _ _ _) (.of_plain (by decide +kernel))
  have missing : (Problem.missing "c").At (Registry.ofTexts resolvedTexts).providers []
      "#include \"c\"".toList "#include \"c\"".toList :=
    .missing (by decide +kernel) List.not_mem_nil absent
  rw [sourceLines]
  refine ⟨_, .splice (by decide +kernel) List.not_mem_nil outer inside
    (.mark missing (by decide +kernel) .nil), by decide +kernel⟩

theorem expand_expand_missing :
    (expand resolvedSource (.ofTexts resolvedTexts)).value.1 =
        "b\na\n#error Unable to locate include: c".toList ∧
      Plain (expand resolvedSource (.ofTexts resolvedTexts)).value.1 ∧
      ∀ again : Registry, (expand (expand resolvedSource (.ofTexts resolvedTexts)).value.1
        again).value.1 = (expand resolvedSource (.ofTexts resolvedTexts)).value.1 := by
  obtain ⟨kept, unfolds, answer⟩ := unfolds_resolvedSource
  have once := unfolds.value_expand.trans answer
  have seamless : ∀ entry ∈ resolvedTexts, Seamless entry.2 := by decide +kernel
  obtain ⟨again, plain⟩ := expand_expand_iff resolvedSource (.ofTexts resolvedTexts)
  have kept := plain kept unfolds (by decide +kernel) (Registry.forall_ofTexts seamless)
  have settled : Settled "b\na\n#error Unable to locate include: c".toList :=
    ⟨by decide +kernel, .inr (by decide +kernel)⟩
  exact ⟨once, kept, fun other => (again kept other).mpr (once ▸ settled)⟩

/-- The last line of the source is a comment and drops out, and so does the last line of what is
left. -/
theorem trailing_comments_drop_one_by_one :
    let registry := Registry.ofTexts []
    let once := (expand "// a\n// b".toList registry).value.1
    registry.Fixed ∧ once = "// a".toList ∧ (expand once registry).value.1 ≠ once := by
  intro registry once
  have first : once = "// a".toList := by
    have plain : Plain "// a\n// b".toList := by decide +kernel
    exact (congrArg Prod.fst (value_expand plain registry)).trans (by decide +kernel)
  have second : (expand "// a".toList registry).value.1 = [] := by
    rw [value_expand (by decide +kernel)]
    decide +kernel
  rw [first, second]
  exact ⟨Registry.fixed_ofTexts [], rfl, by decide⟩

end Include

end ShaderPipeline
