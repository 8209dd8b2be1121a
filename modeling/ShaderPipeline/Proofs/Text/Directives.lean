import ShaderPipeline.Text.Directive
import ShaderPipeline.Proofs.Text.Codes
import ShaderPipeline.Proofs.Text.Words

/-! A directive line reads the same with blanks around it. -/

namespace ShaderPipeline.Text

variable {c : Char} (blank : isBlank c = true)

include blank

private theorem trimStart_append_blank (text : Text) :
    trimStart (text ++ [c]) = if (trimStart text).isEmpty then [] else trimStart text ++ [c] := by
  simp [trimStart, List.dropWhile_append, blank]

theorem trim_append_blank (text : Text) : trim (text ++ [c]) = trim text := by
  rw [trim, trim, trimStart_append_blank blank]
  by_cases empty : trimStart text = []
  · simp [empty]
  · simp [empty, trimEnd, blank]

end ShaderPipeline.Text

namespace ShaderPipeline.Directive

open Text

private theorem ofLine?_append_blank {c : Char} (blank : isBlank c = true) (line : Text) :
    ofLine? (line ++ [c]) = ofLine? line := by
  have mark : isWordChar c = false := by
    cases letter : isWordChar c with
    | false => rfl
    | true => rw [isBlank_of_isWordChar letter] at blank; cases blank
  have name (body : Text) : (body ++ [c]).takeWhile isWordChar = body.takeWhile isWordChar := by
    rw [List.takeWhile_append]
    split
    next whole =>
      have all := (List.takeWhile_prefix (l := body) isWordChar).eq_of_length whole
      simp [mark, all]
    next => rfl
  have rest (body : Text) : (body ++ [c]).dropWhile isWordChar =
      body.dropWhile isWordChar ++ [c] := by
    rw [List.dropWhile_append]
    split <;> simp_all
  rw [ofLine?, ofLine?, trimStart_append_blank blank]
  cases start : trimStart line with
  | nil => rfl
  | cons first tail =>
    by_cases sign : first = '#'
    · simp only [List.isEmpty_cons, Bool.false_eq_true, ↓reduceIte, List.cons_append, dropStart?,
        sign, Option.bind_eq_bind, Option.bind_some, trimStart_append_blank blank]
      cases body : trimStart tail with
      | nil => rfl
      | cons head others =>
        simp only [List.isEmpty_cons, Bool.false_eq_true, ↓reduceIte, name, rest,
          trim_append_blank blank]
    · simp [dropStart?, sign]

private theorem ofLine?_append_return (line : Text) : ofLine? (line ++ ['\r']) = ofLine? line :=
  ofLine?_append_blank rfl line

private theorem ofLine?_append_blanks {trail : Text} (blank : ∀ c ∈ trail, isBlank c = true)
    (line : Text) :
    ofLine? (line ++ trail) = ofLine? line := by
  induction trail generalizing line with
  | nil => rw [List.append_nil]
  | cons c rest ih =>
    obtain ⟨first, others⟩ := List.forall_mem_cons.mp blank
    rw [List.append_cons, ih others, ofLine?_append_blank first]

theorem ofLine?_trim (line : Text) : ofLine? (trim line) = ofLine? line := by
  obtain ⟨lead, trail, whole, before, after, _⟩ := exists_trim line
  have behind (text : Text) : ofLine? (lead ++ text) = ofLine? text := by
    rw [ofLine?, ofLine?, trimStart, trimStart, List.dropWhile_append_of_pos before]
  conv => rhs; rw [whole, behind, ofLine?_append_blanks after]

theorem ofLine?_dropReturn (line : Text) : ofLine? (dropReturn line) = ofLine? line := by
  rcases dropReturn_cases line with same | longer
  · rw [same]
  · conv => rhs; rw [longer]
    rw [ofLine?_append_return]

/-- A carriage return at the end of a line does not touch the directive in its code. -/
theorem ofLine?_stripped_dropReturn (state : CommentState) (line : Text) :
    ofLine? (state.stripped (dropReturn line)) = ofLine? (state.stripped line) := by
  rcases dropReturn_cases line with same | longer
  · rw [same]
  · conv => rhs; rw [longer]
    rcases state.stripped_append_return (dropReturn line) with kept | inside
    · rw [kept, ofLine?_append_return]
    · rw [inside]

theorem argument_subset {line argument : Text} {name : String}
    (read : ofLine? line = some ⟨name, argument⟩) : argument ⊆ line := by
  simp only [ofLine?, Option.bind_eq_bind, Option.bind_eq_some_iff] at read
  obtain ⟨afterSign, start, read⟩ := read
  have sign : afterSign ⊆ line := by
    rw [dropStart?_eq_some_iff] at start
    intro c member
    apply (List.dropWhile_suffix isBlank).subset
    rw [← trimStart, start]
    exact List.mem_append_right _ member
  split at read
  · cases read
  · cases read
    refine fun c member => sign ?_
    have rest := (List.dropWhile_suffix isWordChar).subset (trim_subset _ member)
    exact (List.dropWhile_suffix isBlank).subset rest

end ShaderPipeline.Directive
