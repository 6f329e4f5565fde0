import ShapeAudit.Text

/-!
Numbers of a configuration. An integer stays an integer while it fits 64 bits. Any other number is
held as a double, and a double as the shortest decimal that rounds to it, so that two doubles are
the same exactly if their decimals are.
-/

namespace ShapeAudit.Json

/-! ## Doubles as exact fractions -/

/-- A positive double: an odd or even mantissa below two to the 53rd, times a power of two. -/
structure Binary where
  mantissa : Nat
  exponent : Int
  deriving DecidableEq, Repr

namespace Binary

/-- Numerator and denominator of a power of a base. -/
def power (base : Nat) (exponent : Int) : Nat × Nat :=
  if exponent < 0 then (1, Nat.pow base (-exponent).toNat) else (Nat.pow base exponent.toNat, 1)

/-- A quotient rounded to the nearest integer, half to the even one. -/
def divideEven (numerator denominator : Nat) : Nat :=
  let quotient := numerator / denominator
  let doubled := 2 * (numerator % denominator)
  if doubled < denominator then quotient
  else if denominator < doubled then quotient + 1
  else quotient + quotient % 2

/-- The exponent of the last binary place of the double nearest to a fraction. -/
def lastPlace (numerator denominator : Nat) : Int :=
  let estimate : Int := (Nat.log2 numerator : Int) - (Nat.log2 denominator : Int)
  let (up, down) := power 2 estimate
  let leading := if numerator * down < denominator * up then estimate - 1 else estimate
  max (leading - 52) (-1074)

/-- The double nearest to a positive fraction, half to the even mantissa; none if it is too large. -/
def nearest? (numerator denominator : Nat) : Option Binary :=
  let place := lastPlace numerator denominator
  let (up, down) := power 2 place
  let mantissa := divideEven (numerator * down) (denominator * up)
  let carried : Binary :=
    if mantissa = Nat.pow 2 53 then ⟨Nat.pow 2 52, place + 1⟩ else ⟨mantissa, place⟩
  if carried.exponent > 971 then none else some carried

/-- The value of a double as a fraction. -/
def fraction (b : Binary) : Nat × Nat :=
  let (up, down) := power 2 b.exponent
  (b.mantissa * up, down)

/-- The double nearest to the product of two doubles. -/
def multiply? (a b : Binary) : Option Binary :=
  let (p, q) := a.fraction
  let (r, s) := b.fraction
  nearest? (p * r) (q * s)

/-- The double nearest to the quotient of two doubles. -/
def divide? (a b : Binary) : Option Binary :=
  let (p, q) := a.fraction
  let (r, s) := b.fraction
  nearest? (p * s) (q * r)

end Binary

/-! ## Decimals -/

/-- A decimal: a sign, digits and a power of ten. -/
structure Decimal where
  negative : Bool
  digits : Nat
  power : Int
  /-- The digits have no zero at the end, so a value is held in one way only; zero has digits zero
  and power zero. -/
  settled : digits % 10 ≠ 0 ∨ digits = 0 ∧ power = 0
  deriving DecidableEq, Repr

namespace Decimal

/-- Zero, of either sign. -/
def zero (negative : Bool) : Decimal :=
  ⟨negative, 0, 0, Or.inr ⟨rfl, rfl⟩⟩

/-- Moves the zeros at the end of the digits into the power. -/
def dropZeros : Nat → Nat → Int → Nat × Int
  | 0, digits, power => (digits, power)
  | fuel + 1, digits, power =>
    if digits ≠ 0 ∧ digits % 10 = 0 then dropZeros fuel (digits / 10) (power + 1)
    else (digits, power)

/-- As many steps as the number itself drop all zeros. -/
theorem dropZeros_mod_ten
    {fuel digits : Nat} (nonzero : digits ≠ 0) (enough : digits ≤ fuel) (power : Int) :
    (dropZeros fuel digits power).1 % 10 ≠ 0 := by
  induction fuel generalizing digits power with
  | zero =>
      omega
  | succ fuel inductionHypothesis =>
      by_cases ends : digits % 10 = 0
      · have shorter : digits / 10 ≠ 0 := by
          omega
        rw [dropZeros, if_pos ⟨nonzero, ends⟩]
        exact inductionHypothesis shorter (by omega) (power + 1)
      · rw [dropZeros, if_neg fun both => ends both.2]
        exact ends

/-- The decimal of digits times a power of ten. -/
def ofDigits (negative : Bool) (digits : Nat) (power : Int) : Decimal :=
  if isZero : digits = 0 then zero negative
  else
    let shifted := dropZeros digits digits power
    ⟨negative, shifted.1, shifted.2, Or.inl (dropZeros_mod_ten isZero (Nat.le_refl digits) power)⟩

/-- The number of decimal digits before the point of a fraction, zero or less below one. -/
def magnitude (numerator denominator : Nat) : Int :=
  if denominator ≤ numerator then (Nat.toDigits 10 (numerator / denominator)).length
  else 1 - ((Nat.toDigits 10 ((denominator + numerator - 1) / numerator - 1)).length : Int)

/-- The decimals with a given number of digits next to a fraction, the nearer one first. -/
def neighbours (numerator denominator : Nat) (count : Nat) : List (Nat × Int) :=
  let place := magnitude numerator denominator - count
  let (up, down) := Binary.power 10 place
  let scaled := numerator * down
  let unit := denominator * up
  let below := scaled / unit
  let excess := 2 * (scaled % unit)
  let belowFirst := excess < unit || (excess == unit && below % 2 == 0)
  if belowFirst then [(below, place), (below + 1, place)]
  else [(below + 1, place), (below, place)]

/-- Whether a decimal rounds to a double. -/
def roundsTo (target : Binary) (candidate : Nat × Int) : Bool :=
  let (up, down) := Binary.power 10 candidate.2
  candidate.1 ≠ 0 && Binary.nearest? (candidate.1 * up) down == some target

/-- The decimal with the fewest digits that rounds to a double, the nearest of those. -/
def shortest (negative : Bool) (target : Binary) : Decimal :=
  let (numerator, denominator) := target.fraction
  let candidates := (List.range 17).flatMap fun n => neighbours numerator denominator (n + 1)
  match candidates.find? (roundsTo target) with
  | some (digits, power) => ofDigits negative digits power
  | none => zero negative

/-- Digits with the decimal point after the first, if there are more. -/
def pointed : List Char → List Char
  | [] => []
  | [only] => [only]
  | first :: rest => first :: '.' :: rest

/-- Digits with the decimal point a number of places after their beginning. Positional from a
hundred-thousandth up to ten to the sixteenth, with at least one place after the point; with an
exponent of explicit sign elsewhere. -/
def layout (digits : List Char) (point : Int) : List Char :=
  if 0 < point ∧ point ≤ 16 then
    let whole := point.toNat
    let padded := digits ++ List.replicate (whole - digits.length) '0'
    let places := padded.drop whole
    padded.take whole ++ '.' :: (if places.isEmpty then ['0'] else places)
  else if -5 < point ∧ point ≤ 0 then
    '0' :: '.' :: (List.replicate (-point).toNat '0' ++ digits)
  else
    let exponent := point - 1
    let mark := if exponent < 0 then '-' else '+'
    pointed digits ++ 'e' :: mark :: Nat.toDigits 10 exponent.natAbs

/-- The text of a decimal. -/
def text (d : Decimal) : String :=
  let sign := if d.negative then ['-'] else []
  let digits := Nat.toDigits 10 d.digits
  let body := if d.digits = 0 then ['0', '.', '0'] else layout digits (digits.length + d.power)
  String.ofList (sign ++ body)

end Decimal

/-! ## Numbers -/

/-- A number: a natural number below two to the 64th, a negative integer of 64 bits, or a double. -/
inductive Number where
  | natural (value : Nat)
  | negative (magnitude : Nat)
  | double (value : Decimal)
  deriving DecidableEq, Repr

namespace Number

/-- The text of a number in JSON. -/
def text : Number → String
  | natural value => Text.decimal value
  | negative magnitude => "-" ++ Text.decimal magnitude
  | double value => value.text

/-- Numbers agree if they are of one kind and of one value; the two zeros of a double agree. -/
def agree : Number → Number → Bool
  | double a, double b => a == b || (a.digits == 0 && b.digits == 0)
  | a, b => a == b

/-- Divides by ten to the 308th until the power of ten is in the table. -/
def scaleDown : Nat → Binary → Nat → Option Binary
  | 0, _, _ => none
  | fuel + 1, value, power =>
    if power ≤ 308 then
      (Binary.nearest? (Nat.pow 10 power) 1).bind value.divide?
    else
      match (Binary.nearest? (Nat.pow 10 308) 1).bind value.divide? with
      | none => none
      | some smaller =>
        if smaller.mantissa = 0 then some smaller else scaleDown fuel smaller (power - 308)

/-- The double written with a significand of 64 bits and a power of ten; none if it is too large.
The significand and the power of ten are each rounded to a double before they are combined. -/
def ofParts? (isNegative : Bool) (significand : Nat) (power : Int) : Option Number :=
  if significand = 0 then some (double (Decimal.zero isNegative))
  else
    match Binary.nearest? significand 1 with
    | none => none
    | some start =>
      let scaled :=
        if 308 < power then none
        else if 0 ≤ power then (Binary.nearest? (Nat.pow 10 power.toNat) 1).bind start.multiply?
        else scaleDown 4 start (min power.natAbs 1300)
      scaled.map fun value =>
        if value.mantissa = 0 then double (Decimal.zero isNegative)
        else double (Decimal.shortest isNegative value)

end Number

end ShapeAudit.Json
