import ShapeAudit.Text

/-!
Reading natural numbers of 64 bits from text.
-/

namespace ShapeAudit.Text

/-- Why a text is no natural number of 64 bits. -/
inductive CountFault where
  | empty
  | notDigit
  | tooLarge
  deriving DecidableEq, Repr

/-- The wording of a fault. -/
def CountFault.message : CountFault → String
  | empty => "cannot parse integer from empty string"
  | notDigit => "invalid digit found in string"
  | tooLarge => "number too large to fit in target type"

/-- Reads digits onto a number, refusing what no longer fits 64 bits. -/
def countFrom : Nat → List Char → Except CountFault Nat
  | value, [] => .ok value
  | value, c :: rest =>
    if isAsciiDigit c then
      let next := value * 10 + (c.toNat - 48)
      if next < Nat.pow 2 64 then countFrom next rest else .error .tooLarge
    else .error .notDigit

/-- Reads a natural number of 64 bits: digits, perhaps after a plus. -/
def count (text : String) : Except CountFault Nat :=
  match text.toList with
  | [] => .error .empty
  | ['+'] => .error .notDigit
  | '+' :: digits => countFrom 0 digits
  | digits => countFrom 0 digits

end ShapeAudit.Text
