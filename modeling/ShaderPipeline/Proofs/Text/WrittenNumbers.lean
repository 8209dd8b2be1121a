import Mathlib.Data.List.Induction
import ShaderPipeline.Proofs.Text.Numerals

/-! The grammar of numerals: digits and the number they write, an optional sign before them, and an
optional mark before hexadecimal ones. Exactly the numerals that fit into a word are read. -/

namespace ShaderPipeline.Text

/-- Digits of a base and the number they write. The last one counts once. -/
inductive Digits (base : Nat) : Text → Nat → Prop
  | one {c : Char} {digit : Nat} (last : digitValue? base c = some digit) : Digits base [c] digit
  | more {text : Text} {number : Nat} {c : Char} {digit : Nat} (front : Digits base text number)
      (last : digitValue? base c = some digit) :
      Digits base (text ++ [c]) (number * base + digit)

/-- A numeral of a 32-bit number. -/
inductive Natural (base : Nat) : Text → Nat → Prop
  | unsigned {text : Text} {number : Nat} (digits : Digits base text number)
      (fits : number ≤ wordMax) : Natural base text number
  | signed {text : Text} {number : Nat} (digits : Digits base text number)
      (fits : number ≤ wordMax) : Natural base ('+' :: text) number

inductive Hexadecimal : Text → Nat → Prop
  | plain {text : Text} {number : Nat} (digits : Natural 16 text number) : Hexadecimal text number
  | marked {mark : Char} {text : Text} {number : Nat} (marks : mark = 'x' ∨ mark = 'X')
      (digits : Natural 16 text number) : Hexadecimal ('0' :: mark :: text) number

variable {base number : Nat} {text : Text}

private theorem digitsValue?_concat (front : Text) (c : Char) :
    digitsValue? base 0 (front ++ [c]) = some number ↔
      ∃ value digit, digitsValue? base 0 front = some value ∧
        digitValue? base c = some digit ∧ value * base + digit = number := by
  rw [digitsValue?_append]
  simp [digitsValue?, Option.bind_eq_some_iff]

theorem Digits.ne_nil (digits : Digits base text number) : text ≠ [] := by
  cases digits <;> simp

private theorem digitsValue?_eq_some_iff (filled : text ≠ []) :
    digitsValue? base 0 text = some number ↔ Digits base text number := by
  constructor
  · intro read
    induction text using List.reverseRecOn generalizing number with
    | nil => exact absurd rfl filled
    | append_singleton front c ih =>
      obtain ⟨value, digit, before, last, rfl⟩ := (digitsValue?_concat front c).mp read
      by_cases none : front = []
      · subst none
        cases before
        simpa using Digits.one last
      · exact .more (ih none before) last
  · intro digits
    induction digits with
    | one last => simp [digitsValue?, last]
    | more front last ih =>
      exact (digitsValue?_concat _ _).mpr ⟨_, _, ih front.ne_nil, last, rfl⟩

theorem Digits.isSome_of_mem (digits : Digits base text number) :
    ∀ c ∈ text, (digitValue? base c).isSome = true :=
  isSome_of_digitsValue? ((digitsValue?_eq_some_iff digits.ne_nil).mpr digits)

/-- A sign is no digit. -/
theorem not_digits_plus : ¬ Digits base ('+' :: text) number := fun digits => by
  have digit := digits.isSome_of_mem '+' List.mem_cons_self
  cases digit

private theorem natural?_eq_some_iff :
    natural? base text = some number ↔ Natural base text number := by
  have read (digits : Text) :
      (if digits.isEmpty then none else (digitsValue? base 0 digits).filter (· ≤ wordMax)) =
        some number ↔ Digits base digits number ∧ number ≤ wordMax := by
    cases digits with
    | nil => exact iff_of_false nofun fun absent => absent.1.ne_nil rfl
    | cons c rest =>
      rw [if_neg (by simp), Option.filter_eq_some_iff,
        digitsValue?_eq_some_iff (List.cons_ne_nil c rest), decide_eq_true_iff]
  rw [natural?]
  rw [read]
  cases sign : dropStart? ['+'] text with
  | none =>
    refine ⟨fun read => .unsigned read.1 read.2, fun written => ?_⟩
    cases written with
    | unsigned digits fits => exact ⟨digits, fits⟩
    | signed digits fits => cases sign
  | some rest =>
    obtain rfl := dropStart?_eq_some_iff.mp sign
    refine ⟨fun read => .signed read.1 read.2, fun written => ?_⟩
    cases written with
    | unsigned digits fits => exact absurd digits not_digits_plus
    | signed digits fits => exact ⟨digits, fits⟩

theorem decimal?_eq_some_iff : decimal? text = some number ↔ Natural 10 text number :=
  natural?_eq_some_iff

/-- A mark is no digit, so the digits begin behind it. -/
theorem not_natural_marked {mark : Char} (marks : mark = 'x' ∨ mark = 'X') :
    ¬ Natural 16 ('0' :: mark :: text) number := by
  intro written
  cases written with
  | unsigned digits fits =>
    have digit := digits.isSome_of_mem mark (by simp)
    rcases marks with rfl | rfl <;> cases digit

theorem hexadecimal?_eq_some_iff : hexadecimal? text = some number ↔ Hexadecimal text number := by
  rw [hexadecimal?, natural?_eq_some_iff]
  cases lower : dropStart? ['0', 'x'] text with
  | some rest =>
    obtain rfl := dropStart?_eq_some_iff.mp lower
    refine ⟨.marked (.inl rfl), fun written => ?_⟩
    cases written with
    | plain digits => exact absurd digits (not_natural_marked (.inl rfl))
    | marked _ digits => exact digits
  | none =>
    cases upper : dropStart? ['0', 'X'] text with
    | some rest =>
      obtain rfl := dropStart?_eq_some_iff.mp upper
      refine ⟨.marked (.inr rfl), fun written => ?_⟩
      cases written with
      | plain digits => exact absurd digits (not_natural_marked (.inr rfl))
      | marked _ digits => exact digits
    | none =>
      refine ⟨.plain, fun written => ?_⟩
      cases written with
      | plain digits => exact digits
      | marked marks digits =>
        rcases marks with rfl | rfl
        · cases lower
        · cases upper

end ShaderPipeline.Text
