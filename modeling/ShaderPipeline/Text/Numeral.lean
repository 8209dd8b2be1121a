import ShaderPipeline.Text.Split
import ShaderPipeline.Word

/-! Numerals: bounded natural numbers in base ten and sixteen, and decimal numerals read as
doubles as far as telling which of them are zero. -/

namespace ShaderPipeline.Text

/-- The value of a digit in a base up to sixteen. -/
def digitValue? (base : Nat) (c : Char) : Option Nat :=
  let value? :=
    if c.isDigit then some (c.toNat - '0'.toNat)
    else if 'a' ≤ c ∧ c ≤ 'f' then some (c.toNat - 'a'.toNat + 10)
    else if 'A' ≤ c ∧ c ≤ 'F' then some (c.toNat - 'A'.toNat + 10)
    else none
  value?.filter (· < base)

/-- The value of a run of digits, read on from `value`. -/
def digitsValue? (base : Nat) (value : Nat) : Text → Option Nat
  | [] => some value
  | c :: rest => do digitsValue? base (value * base + (← digitValue? base c)) rest

/-- A 32-bit natural number: an optional plus sign and at least one digit. -/
def natural? (base : Nat) (text : Text) : Option Nat :=
  let digits := (dropStart? ['+'] text).getD text
  if digits.isEmpty then none
  else (digitsValue? base 0 digits).filter (· ≤ wordMax)

def decimal? (text : Text) : Option Nat := natural? 10 text

/-- A hexadecimal number with an optional `0x` before it. -/
def hexadecimal? (text : Text) : Option Nat :=
  natural? 16 (((dropStart? ['0', 'x'] text).or (dropStart? ['0', 'X'] text)).getD text)

/-- The upper-case hexadecimal digits of a number. -/
def upperHex (value : Nat) : String :=
  String.ofList ((Nat.toDigits 16 value).map Char.toUpper)

/-- A number written as `mantissa · 10 ^ exponent`. -/
structure Scientific where
  mantissa : Nat
  exponent : Int
  deriving DecidableEq, Repr

/-- Half of the least positive double, `2 ^ -1075`, and all below it round to zero. A number that
is not a fraction stands against `10 ^ 0`, which only zero stays under. -/
def Scientific.isZeroDouble (number : Scientific) : Bool :=
  number.mantissa <<< 1075 ≤ Nat.pow 10 (-number.exponent).toNat

/-- The value of an exponent's digits. It stops growing once it has passed every exponent that
a double can have. -/
def exponentValue (digits : Text) : Nat :=
  digits.foldl (fun value c =>
    if value < 0x10000 then 10 * value + (c.toNat - '0'.toNat) else value) 0

/-- The exponent part of a decimal numeral: nothing, or a mark, an optional sign and digits. -/
def exponent? : Text → Option Int
  | [] => some 0
  | mark :: rest =>
    if mark = 'e' ∨ mark = 'E' then
      let (negative, digits) := match rest with
        | '-' :: digits => (true, digits)
        | '+' :: digits => (false, digits)
        | digits => (false, digits)
      if digits.isEmpty ∨ digits.any (!·.isDigit) then none
      else some (if negative then -(exponentValue digits : Int) else exponentValue digits)
    else none

/-- A decimal numeral without its sign: digits with at most one point among them, at least one
digit, and an optional exponent. -/
def scientific? (text : Text) : Option Scientific :=
  let whole := text.takeWhile Char.isDigit
  let afterWhole := text.dropWhile Char.isDigit
  let (places, tail) := match afterWhole with
    | '.' :: rest => (rest.takeWhile Char.isDigit, rest.dropWhile Char.isDigit)
    | rest => ([], rest)
  if whole.isEmpty ∧ places.isEmpty then none
  else do
    let exponent ← exponent? tail
    let mantissa ← digitsValue? 10 0 (whole ++ places)
    some ⟨mantissa, exponent - places.length⟩

/-- The number that a text writes, as far as being zero goes: `none` if it writes none. The
words `inf`, `infinity` and `nan` in any case are numbers other than zero. -/
def isNonzeroNumber? (text : Text) : Option Bool :=
  let unsigned := match text with
    | '-' :: rest => rest
    | '+' :: rest => rest
    | rest => rest
  if ["inf", "infinity", "nan"].contains (String.ofList (unsigned.map Char.toLower)) then some true
  else (scientific? unsigned).map fun number => !number.isZeroDouble

end ShaderPipeline.Text
