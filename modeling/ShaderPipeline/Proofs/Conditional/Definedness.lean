import ShaderPipeline.Proofs.Condition.Evaluation
import ShaderPipeline.Proofs.Conditional.Results
import ShaderPipeline.Proofs.Macro.Expansion
import ShaderPipeline.Proofs.Text.Declarators
import ShaderPipeline.Proofs.Text.Pieces

/-! Names as conditions. `#if` asks of a name what `#ifdef` asks, whether its macro is defined,
unless the name can also be read as a number. -/

namespace ShaderPipeline.Text

/-- Whether a word is read as a number although it has no digit. -/
def isNumberWord (word : Text) : Bool :=
  ["inf", "infinity", "nan"].contains (String.ofList (word.map Char.toLower))

/-- What starts a name starts no numeral. -/
theorem isDigit_of_isWordStart {c : Char} (start : isWordStart c = true) : c.isDigit = false := by
  have classes : ((c.isUpper || c.isLower) || c == '_') = true := start
  simp only [Bool.or_eq_true, beq_iff_eq] at classes
  rw [Char.isDigit, Bool.and_eq_false_iff, decide_eq_false_iff_not, decide_eq_false_iff_not]
  rcases classes with (upper | lower) | rfl
  · have least : 0x41 ≤ c.toNat := (of_decide_eq_true upper : _ ∧ _).1
    exact .inr fun most => absurd (show c.toNat ≤ 0x39 from most) (by omega)
  · have least : 0x61 ≤ c.toNat := of_decide_eq_true (Bool.and_eq_true_iff.mp lower).1
    exact .inr fun most => absurd (show c.toNat ≤ 0x39 from most) (by omega)
  · decide

private theorem isNonzeroNumber?_of_isIdentifier {name : Text} (named : isIdentifier name = true) :
    isNonzeroNumber? name = if isNumberWord name then some true else none := by
  obtain ⟨first, rest, rfl⟩ := List.exists_cons_of_ne_nil (ne_nil_of_isIdentifier named)
  have start : isWordStart first = true := (Bool.and_eq_true_iff.mp named).1
  have digit := isDigit_of_isWordStart start
  have point : first ≠ '.' := by rintro rfl; cases start
  have plain : scientific? (first :: rest) = none := by simp [scientific?, digit, point]
  simp only [isNonzeroNumber?, isNumberWord]
  split
  next minus => cases minus; cases start
  next plus => cases plus; cases start
  next =>
    rw [plain, Option.map_none]
    rfl

end ShaderPipeline.Text

namespace ShaderPipeline.Condition

open Text

private theorem plain_of_isIdentifier {name : Text} (named : isIdentifier name = true) :
    (Token.operand name).Plain := by
  refine ⟨ne_nil_of_isIdentifier named, fun c member => ?_⟩
  have letter := isWordChar_of_mem named c member
  have solid := isBlank_of_isWordChar letter
  have codes := toNat_of_isWordChar letter
  simp only [isOperandChar, solid, Bool.false_or, Bool.not_eq_true', List.contains_eq_mem,
    decide_eq_false_iff_not, List.mem_cons, List.not_mem_nil, or_false, not_or]
  refine ⟨?_, ?_, ?_, ?_, ?_, ?_⟩ <;> (rintro rfl; cases letter)

/-- An operand alone is a condition. -/
theorem evaluate_operand (table : MacroTable) {text : Text}
    (plain : (Token.operand text).Plain) :
    evaluate table text = .ok (operandHolds table text) := by
  have read : tokenize text = .ok [.operand text] := by
    have last : Apart [] := fun c absent => (nomatch absent)
    have first := tokenize_operand plain last
    rw [List.append_nil] at first
    rw [first, tokenize.eq_def]
    rfl
  rw [evaluate_of_tokens read, if_neg (List.cons_ne_nil _ _)]
  rfl

end ShaderPipeline.Condition

namespace ShaderPipeline.Conditional

open Text

/-- A macro that is defined has an empty value, so that its name stays in a condition. -/
def Bare (macros : MacroTable) (name : Text) : Prop :=
  ∀ value, macros[name.string]? = some value → value = []

private theorem expand_bare {macros : MacroTable} {name : Text} (named : isIdentifier name = true)
    (bare : Bare macros name) : Macro.expand macros .nonEmpty name = name := by
  refine Macro.expand_of_settled fun other member expandable => ?_
  obtain ⟨value, found, expands⟩ := expandable
  have same : name = other.toList := by
    rw [identifiers_of_run (ne_nil_of_isIdentifier named) (isWordChar_of_mem named),
      Option.mem_toList, Piece.word?.eq_def] at member
    split at member
    next => cases member
    next whole =>
      cases whole
      split at member
      · cases member
      · exact Option.some.inj member
    next => cases member
  have empty : value = [] := bare value (by simpa [same, Text.string] using found)
  rw [empty] at expands
  cases expands

/-- A name holds if its macro is defined, and if it is read as a number. -/
theorem holdsIn_identifier {macros : MacroTable} {name : Text} (named : isIdentifier name = true)
    (notTrue : name ≠ "true".toList) (notFalse : name ≠ "false".toList)
    (bare : Bare macros name) :
    holdsIn macros name = (isNumberWord name || macros.contains name.string) := by
  rw [holdsIn, expand_bare named bare,
    Condition.evaluate_operand macros (Condition.plain_of_isIdentifier named)]
  simp only [Condition.operandHolds, notTrue, notFalse, ↓reduceIte,
    isNonzeroNumber?_of_isIdentifier named]
  cases isNumberWord name <;> rfl

private theorem definedIn_identifier (macros : MacroTable) {name : Text}
    (named : isIdentifier name = true) :
    definedIn macros name = some (macros.contains name.string) := by
  have single : words name = [name] := by
    have apart : ∀ c ∈ ([] : Text).head?, isBlank c = true := fun c absent => (nomatch absent)
    have first := words_append (ne_nil_of_isIdentifier named)
      (fun c member => isBlank_of_isWordChar (isWordChar_of_mem named c member)) apart
    rwa [List.append_nil] at first
  rw [definedIn, single]
  rfl

/-- `#if` and `#ifdef` of a name do the same, whatever the line is written like, except in live
text that asks for a macro which is not defined and whose name is read as a number. -/
theorem if_agrees_with_ifdef_iff {name : Text} (named : isIdentifier name = true)
    (notTrue : name ≠ "true".toList) (notFalse : name ≠ "false".toList) {state : State}
    (bare : Bare state.macros name) (place : Place) :
    (Pass.holds place name).result state =
        (.ok (isNumberWord name || state.macros.contains name.string), state) ∧
      ∀ first firstCode second secondCode : Text,
        Directive.ofLine? firstCode = some ⟨"if", name⟩ →
        Directive.ofLine? secondCode = some ⟨"ifdef", name⟩ →
        ((Pass.line place first firstCode).result state =
            (Pass.line place second secondCode).result state ↔
          (state.gates.live = true → isNumberWord name = true →
            state.macros.contains name.string = true)) := by
  have holds := holdsIn_identifier named notTrue notFalse bare
  refine ⟨by rw [Pass.result_holds, holds], ?_⟩
  intro first firstCode second secondCode asIf asIfdef
  have tested : (Pass.line place first firstCode).result state =
      (.ok [], { state with gates :=
        (state.gates.live && (isNumberWord name || state.macros.contains name.string)) ::
          state.gates }) := by
    rw [Pass.line, asIf, ← holds]
    exact Pass.result_directive place name state first "if"
  have asked : (Pass.line place second secondCode).result state =
      (.ok [], { state with gates :=
        (state.gates.live && state.macros.contains name.string) :: state.gates }) := by
    rw [Pass.line, asIfdef]
    refine (Pass.result_directive place name state second "ifdef").trans ?_
    rw [definedIn_identifier state.macros named]
    cases state.macros.contains name.string <;> rfl
  rw [tested, asked]
  cases live : state.gates.live <;> cases isNumberWord name <;>
    cases state.macros.contains name.string <;> simp

/-- A macro with an empty value. -/
def flagged : State := ⟨[true], ({} : MacroTable).insert "SHADOWS" []⟩

theorem if_agrees_with_ifdef_iff_shadows :
    isIdentifier "SHADOWS".toList = true ∧ Bare flagged.macros "SHADOWS".toList ∧
      (Pass.line ⟨"main", 3⟩ [] "#if SHADOWS".toList).result flagged =
        (Pass.line ⟨"main", 3⟩ [] "  # ifdef\tSHADOWS ".toList).result flagged := by
  have named : isIdentifier "SHADOWS".toList = true := by decide
  have found : flagged.macros["SHADOWS"]? = some [] := by decide
  have bare : Bare flagged.macros "SHADOWS".toList := by
    intro value defined
    exact Option.some.inj (defined.symm.trans found)
  have agrees := if_agrees_with_ifdef_iff named (by decide) (by decide) bare ⟨"main", 3⟩
  refine ⟨named, bare, ?_⟩
  refine (agrees.2 [] "#if SHADOWS".toList [] "  # ifdef\tSHADOWS ".toList
    (by decide) (by decide)).mpr fun _ _ => ?_
  decide

/-- `nan` is a name like others, but `#if nan` holds where no macro has the name. -/
theorem nan_holds_undefined :
    let name : Text := "nan".toList
    isIdentifier name = true ∧ name ≠ "true".toList ∧ name ≠ "false".toList ∧ Bare {} name ∧
      ¬ (holdsIn {} name = true ↔ ({} : MacroTable).contains "nan" = true) ∧
      (Pass.line ⟨"main", 1⟩ [] "#if nan".toList).result ⟨[], {}⟩ ≠
        (Pass.line ⟨"main", 1⟩ [] "#ifdef nan".toList).result ⟨[], {}⟩ := by
  intro name
  have absent : ({} : MacroTable)["nan"]? = none := by decide
  have holds : holdsIn {} name = true := by decide +kernel
  have undefined : ({} : MacroTable).contains "nan" = false := by decide
  refine ⟨by decide, by decide, by decide, fun value found => ?_, fun same => ?_, fun same => ?_⟩
  · cases absent.symm.trans found
  · cases undefined.symm.trans (same.mp holds)
  · have gates := congrArg (·.2.gates) same
    revert gates
    decide +kernel

end ShaderPipeline.Conditional
