import ShaderPipeline.Proofs.Text.Lines
import ShaderPipeline.Proofs.Text.Words
import ShaderPipeline.Text.ArraySuffix
import ShaderPipeline.Text.Statement
import ShaderPipeline.Text.Word

/-! Declared names and the statements that hold them. An identifier with the length of an array
behind it is read back as the two, and every length that is read is positive. -/

namespace ShaderPipeline.Text

/-! ### Identifiers -/

theorem isWordChar_of_mem {name : Text} (identifier : isIdentifier name = true) :
    ∀ c ∈ name, isWordChar c = true := by
  cases name with
  | nil => exact fun _ absent => (nomatch absent)
  | cons first rest =>
    rw [isIdentifier, Bool.and_eq_true] at identifier
    obtain ⟨start, others⟩ := identifier
    intro c member
    rcases List.mem_cons.mp member with rfl | later
    · rw [isWordStart, Bool.or_eq_true] at start
      rw [isWordChar, Char.isAlphanum, Bool.or_eq_true, Bool.or_eq_true]
      exact start.imp_left .inl
    · exact List.all_eq_true.mp others c later

theorem ne_nil_of_isIdentifier {name : Text} (identifier : isIdentifier name = true) :
    name ≠ [] := by
  rintro rfl
  cases identifier

/-! ### Numbers -/

private theorem digitValue?_of_isDigit {c : Char} (digit : c.isDigit = true) :
    digitValue? 10 c = some (c.toNat - '0'.toNat) := by
  have less : c.toNat - 0x30 < 10 := by
    have bounds := digit
    simp only [Char.isDigit, Bool.and_eq_true, decide_eq_true_eq, UInt32.le_iff_toNat_le] at bounds
    have last : c.toNat ≤ 0x39 := bounds.2
    omega
  simp [digitValue?, digit, Option.filter, less]

theorem digitsValue?_of_isDigit {digits : Text} (all : ∀ c ∈ digits, c.isDigit = true)
    (value : Nat) : digitsValue? 10 value digits = some (Nat.ofDigitChars 10 digits value) := by
  induction digits generalizing value with
  | nil => rfl
  | cons c rest ih =>
    have first := digitValue?_of_isDigit (all c List.mem_cons_self)
    have others := ih fun other member => all other (List.mem_cons_of_mem c member)
    rw [digitsValue?, first, Nat.ofDigitChars_cons, Nat.mul_comm]
    exact others _

/-- A word is read back from its digits. -/
theorem decimal?_toDigits {number : Nat} (bounded : number ≤ wordMax) :
    decimal? (Nat.toDigits 10 number) = some number := by
  have digits : ∀ c ∈ Nat.toDigits 10 number, c.isDigit = true := fun c member =>
    Nat.isDigit_of_mem_toDigits (by omega) (by omega) member
  have unsigned : dropStart? ['+'] (Nat.toDigits 10 number) = none := by
    cases same : dropStart? ['+'] (Nat.toDigits 10 number) with
    | none => rfl
    | some rest =>
      have sign : '+' ∈ Nat.toDigits 10 number := by simp [dropStart?_eq_some_iff.mp same]
      cases digits '+' sign
  rw [decimal?, natural?, unsigned, Option.getD_none, digitsValue?_of_isDigit digits,
    Nat.ofDigitChars_toDigits (by omega) (by omega)]
  simp [Nat.toDigits_ne_nil, Option.filter, bounded]

private theorem isWordChar_of_mem_toDigits {number : Nat} {c : Char}
    (member : c ∈ Nat.toDigits 10 number) : isWordChar c = true := by
  have digit := Nat.isDigit_of_mem_toDigits (by omega) (by omega) member
  simp [isWordChar, Char.isAlphanum, digit]

/-! ### Lengths of arrays -/

private theorem trim_of_isWordChar {text : Text} (letters : ∀ c ∈ text, isWordChar c = true) :
    trim text = text :=
  trim_eq_self (fun c first => isBlank_of_isWordChar (letters c (List.mem_of_head? first)))
    fun c last => isBlank_of_isWordChar (letters c (List.mem_of_getLast? last))

/-- The length of an array is positive. -/
theorem one_le_of_splitArraySuffix? {token name : Text} {length : Nat}
    (split : splitArraySuffix? token = some (name, length)) : 1 ≤ length := by
  rw [splitArraySuffix?] at split
  dsimp only at split
  split at split
  next =>
    split at split
    · cases split
    · cases split
      exact Nat.le_refl 1
  next before after _ =>
    obtain ⟨⟨inside, trailing⟩, _, split⟩ := Option.bind_eq_some_iff.mp split
    dsimp only at split
    split at split
    · cases split
    · obtain ⟨number, _, split⟩ := Option.bind_eq_some_iff.mp split
      split at split
      next => cases split
      next positive =>
        cases split
        exact Nat.pos_of_ne_zero positive

/-- A name, and the length in brackets if it is an array's. -/
def declarator (name : Text) (length : Nat) : Text :=
  if length > 1 then name ++ '[' :: (Nat.toDigits 10 length ++ [']']) else name

variable {name : Text} {length : Nat}

theorem head?_declarator (identifier : isIdentifier name = true) (length : Nat) :
    (declarator name length).head? = name.head? := by
  obtain ⟨first, rest, rfl⟩ := List.exists_cons_of_ne_nil (ne_nil_of_isIdentifier identifier)
  rw [declarator]
  split <;> rfl

/-- A declarator is made of letters, digits and brackets. -/
theorem of_mem_declarator (identifier : isIdentifier name = true) {c : Char}
    (member : c ∈ declarator name length) : isWordChar c = true ∨ c = '[' ∨ c = ']' := by
  rw [declarator] at member
  split at member
  next =>
    rcases List.mem_append.mp member with named | member
    · exact .inl (isWordChar_of_mem identifier c named)
    · rcases List.mem_cons.mp member with rfl | member
      · exact .inr (.inl rfl)
      · rcases List.mem_append.mp member with digit | closing
        · exact .inl (isWordChar_of_mem_toDigits digit)
        · exact .inr (.inr (List.mem_singleton.mp closing))
  next => exact .inl (isWordChar_of_mem identifier c member)

theorem isBlank_of_mem_declarator (identifier : isIdentifier name = true) {c : Char}
    (member : c ∈ declarator name length) : isBlank c = false := by
  rcases of_mem_declarator identifier member with letter | rfl | rfl
  · exact isBlank_of_isWordChar letter
  · rfl
  · rfl

private theorem bare_declarator (identifier : isIdentifier name = true) :
    trimEnd (dropTrailing ';' (trim (declarator name length))) = declarator name length := by
  have solid : ∀ c ∈ declarator name length, isBlank c = false := fun c =>
    isBlank_of_mem_declarator identifier
  have last : ∀ c ∈ (declarator name length).getLast?, c ≠ ';' := by
    rintro c ends rfl
    rcases of_mem_declarator identifier (List.mem_of_getLast? ends) with letter | other | other
    · cases letter
    · cases other
    · cases other
  rw [trim_eq_self (fun c first => solid c (List.mem_of_head? first))
      fun c ends => solid c (List.mem_of_getLast? ends),
    dropTrailing_eq_self last,
    trimEnd_eq_self fun c ends => solid c (List.mem_of_getLast? ends)]

/-- A declarator is read as the name and the length it was written from. -/
theorem splitArraySuffix?_declarator (identifier : isIdentifier name = true)
    (positive : 1 ≤ length) (bounded : length ≤ wordMax) :
    splitArraySuffix? (declarator name length) = some (name, length) := by
  have letters := isWordChar_of_mem identifier
  have named : name ≠ [] := ne_nil_of_isIdentifier identifier
  have opening : '[' ∉ name := fun member => nomatch letters '[' member
  rw [splitArraySuffix?, bare_declarator identifier]
  dsimp only
  rw [declarator]
  by_cases array : length > 1
  · have digits : ∀ c ∈ Nat.toDigits 10 length, isWordChar c = true := fun c =>
      isWordChar_of_mem_toDigits
    have closing : ']' ∉ Nat.toDigits 10 length := fun member => nomatch digits ']' member
    have ends : ∀ c ∈ name.getLast?, isBlank c = false := fun c last =>
      isBlank_of_isWordChar (letters c (List.mem_of_getLast? last))
    have nonzero : length ≠ 0 := Nat.ne_of_gt positive
    have empty : trim [] = [] := rfl
    rw [if_pos array, splitAt?_append_cons opening]
    simp only [splitAt?_append_cons closing, Option.bind_eq_bind, Option.bind_some, empty,
      List.isEmpty_nil, Bool.not_true, trimEnd_eq_self ends, trim_of_isWordChar digits,
      decimal?_toDigits bounded]
    simp [named, nonzero]
  · have closing : ']' ∉ name := fun member => nomatch letters ']' member
    have one : length = 1 := Nat.le_antisymm (Nat.le_of_not_lt array) positive
    rw [if_neg array, splitAt?_eq_none_iff.mpr opening]
    simp [named, closing, one]

/-! ### Statements -/

theorem BlockLine.ofText_of_notMem {text : Text} (unclosed : '\x7d' ∉ text) :
    BlockLine.ofText text = ⟨text, none⟩ := by
  rw [BlockLine.ofText, splitAt?_eq_none_iff.mpr unclosed]

theorem statements_nil : statements [] = [] := rfl

/-- A semicolon ends a statement. -/
theorem statements_append_semicolon {statement : Text} (single : ';' ∉ statement)
    (filled : statement ≠ []) (trimmed : trim statement = statement) :
    statements (statement ++ [';']) = [statement] := by
  have pieces : splitEvery ';' (statement ++ [';']) = [statement, []] := by
    rw [splitEvery_append_cons, splitEvery_of_notMem single]
    rfl
  have empty : trim [] = [] := rfl
  simp [statements, pieces, trimmed, empty, filled]

end ShaderPipeline.Text
