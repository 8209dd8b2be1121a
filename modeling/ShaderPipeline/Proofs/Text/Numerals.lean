import ShaderPipeline.Proofs.Text.Declarators

/-! Numerals that are written by the program. They are read back, and no zero stands in front of
other digits. Whatever is read as a decimal number has no other characters than digits and a
sign. -/

namespace ShaderPipeline.Text

theorem digitsValue?_append (base value : Nat) (first second : Text) :
    digitsValue? base value (first ++ second) =
      (digitsValue? base value first).bind (digitsValue? base · second) := by
  induction first generalizing value with
  | nil => rfl
  | cons c rest ih =>
    simp only [List.cons_append, digitsValue?, ih]
    cases digitValue? base c <;> rfl

private theorem digitValue?_upper {digit : Nat} (small : digit < 16) :
    digitValue? 16 (Nat.digitChar digit).toUpper = some digit := by
  decide +revert

theorem digitsValue?_upperHex (value : Nat) :
    digitsValue? 16 0 (upperHex value).toList = some value := by
  rw [upperHex, String.toList_ofList]
  -- the digits are read from the front and written from the back
  induction value using Nat.strongRecOn with
  | ind value ih =>
    rw [Nat.toDigits_eq_if (by omega)]
    split
    next small => simp [digitsValue?, digitValue?_upper small]
    next large =>
      have last := digitValue?_upper (Nat.mod_lt value (show 0 < 16 by omega))
      have whole : value / 16 * 16 + value % 16 = value := Nat.div_add_mod' value 16
      rw [List.map_append, digitsValue?_append, ih (value / 16) (by omega)]
      simp only [List.map_cons, List.map_nil, Option.bind_some, digitsValue?, last,
        Option.bind_eq_bind, whole]

theorem upperHex_ne_nil (value : Nat) : (upperHex value).toList ≠ [] := by
  simp [upperHex, Nat.toDigits_ne_nil]

theorem digitsValue?_toDigits (value : Nat) :
    digitsValue? 10 0 (Nat.toDigits 10 value) = some value := by
  have digits : ∀ c ∈ Nat.toDigits 10 value, c.isDigit = true := fun c member =>
    Nat.isDigit_of_mem_toDigits (by omega) (by omega) member
  rw [digitsValue?_of_isDigit digits, Nat.ofDigitChars_toDigits (by omega) (by omega)]

/-- Only zero is written with a zero in front. -/
theorem eq_zero_of_head?_toDigits {number : Nat}
    (zero : (Nat.toDigits 10 number).head? = some '0') : number = 0 := by
  induction number using Nat.strongRecOn with
  | ind number ih =>
    rw [Nat.toDigits_eq_if (by omega)] at zero
    split at zero
    next small =>
      have digit : ∀ digit < 10, digit.digitChar = '0' → digit = 0 := by decide
      exact digit number small (Option.some.inj zero)
    next large =>
      have first := List.head?_eq_some_head (Nat.toDigits_ne_nil (n := number / 10) (b := 10))
      rw [List.head?_append, first, Option.some_or, ← first] at zero
      have none := ih (number / 10) (by omega) zero
      omega

theorem isSome_of_digitsValue? {base value number : Nat} {digits : Text}
    (read : digitsValue? base value digits = some number) :
    ∀ c ∈ digits, (digitValue? base c).isSome = true := by
  induction digits generalizing value with
  | nil => exact fun c absent => nomatch absent
  | cons c rest ih =>
    obtain ⟨digit, first, others⟩ := Option.bind_eq_some_iff.mp read
    exact List.forall_mem_cons.mpr ⟨Option.isSome_of_eq_some first, ih others⟩

/-- A decimal number has no characters but digits and a sign. -/
theorem of_mem_decimal {text : Text} {number : Nat} (read : decimal? text = some number) :
    ∀ c ∈ text, c = '+' ∨ (digitValue? 10 c).isSome = true := by
  rw [decimal?, natural?] at read
  split at read
  next => cases read
  next =>
    have digits := isSome_of_digitsValue? (Option.filter_eq_some_iff.mp read).1
    cases sign : dropStart? ['+'] text with
    | none =>
      rw [sign] at digits
      exact fun c member => .inr (digits c member)
    | some rest =>
      rw [sign] at digits
      rw [dropStart?_eq_some_iff.mp sign]
      exact List.forall_mem_cons.mpr ⟨.inl rfl, fun c member => .inr (digits c member)⟩

end ShaderPipeline.Text
