import Mathlib.Algebra.GroupWithZero.Nat
import ShapeAudit.Text.Count

/-!
# Counts

A count is read from the digits of a number that fits 64 bits, with or without a
plus before them, and from nothing else.
-/

namespace ShapeAudit.Text

/-- A text that is a count of so many: one digit or more, perhaps after a plus,
that make up a number of 64 bits. -/
def Counts (text : String) (value : Nat) : Prop :=
  ∃ digits : List Char, digits ≠ [] ∧ (∀ c ∈ digits, isAsciiDigit c = true) ∧
    (text.toList = digits ∨ text.toList = '+' :: digits) ∧
    value = Nat.ofDigitChars 10 digits 0 ∧ value < 2 ^ 64

theorem le_ofDigitChars (digits : List Char) (init : Nat) :
    init ≤ Nat.ofDigitChars 10 digits init := by
  rw [Nat.ofDigitChars_eq_ofDigitChars_zero]
  have scaled : init ≤ 10 ^ digits.length * init :=
    Nat.le_mul_of_pos_left init (Nat.pow_pos (by decide))
  omega

theorem countFrom_cons (init : Nat) (c : Char) (rest : List Char) :
    countFrom init (c :: rest) =
      if isAsciiDigit c = true then
        if 10 * init + (c.toNat - '0'.toNat) < 2 ^ 64 then
          countFrom (10 * init + (c.toNat - '0'.toNat)) rest
        else .error .tooLarge
      else .error .notDigit := by
  rw [Nat.mul_comm]
  rfl

/-- Digits are read onto a number as long as the result fits. -/
theorem countFrom_eq_ok_iff {init : Nat} (fits : init < 2 ^ 64) {digits : List Char} {value : Nat} :
    countFrom init digits = .ok value ↔
      (∀ c ∈ digits, isAsciiDigit c = true) ∧
        value = Nat.ofDigitChars 10 digits init ∧ value < 2 ^ 64 := by
  induction digits generalizing init with
  | nil =>
      simp only [countFrom, Except.ok.injEq, Nat.ofDigitChars_nil]
      constructor
      · rintro rfl
        exact ⟨by simp, rfl, fits⟩
      · rintro ⟨-, rfl, -⟩
        rfl
  | cons c rest inductionHypothesis =>
      rw [countFrom_cons, Nat.ofDigitChars_cons, List.forall_mem_cons]
      by_cases isDigit : isAsciiDigit c = true
      · by_cases nextFits : 10 * init + (c.toNat - '0'.toNat) < 2 ^ 64
        · rw [if_pos isDigit, if_pos nextFits, inductionHypothesis nextFits]
          simp [isDigit]
        · have grows := le_ofDigitChars rest (10 * init + (c.toNat - '0'.toNat))
          rw [if_pos isDigit, if_neg nextFits]
          simp only [reduceCtorEq, false_iff]
          omega
      · rw [if_neg isDigit]
        simp [isDigit]

theorem count_of_digits {text : String} {digits : List Char} (someDigits : digits ≠ [])
    (areDigits : ∀ c ∈ digits, isAsciiDigit c = true)
    (chars : text.toList = digits ∨ text.toList = '+' :: digits) :
    count text = countFrom 0 digits := by
  obtain ⟨first, rest, rfl⟩ := List.exists_cons_of_ne_nil someDigits
  have notPlus : first ≠ '+' := by
    rintro rfl
    exact absurd (areDigits '+' List.mem_cons_self) (by decide)
  rw [count]
  rcases chars with chars | chars <;> rw [chars]
  · simp [notPlus]
  · simp

theorem exists_digits_of_count {text : String} {value : Nat} (counted : count text = .ok value) :
    ∃ digits, digits ≠ [] ∧ (text.toList = digits ∨ text.toList = '+' :: digits) ∧
      countFrom 0 digits = .ok value := by
  rw [count] at counted
  split at counted
  · cases counted
  · cases counted
  · rename_i digits notAlone chars
    refine ⟨digits, ?_, Or.inr chars, counted⟩
    rintro rfl
    exact notAlone rfl
  · rename_i digits someChars notAlone notPlus
    exact ⟨text.toList, someChars, Or.inl rfl, counted⟩

theorem count_eq_ok_iff {text : String} {value : Nat} :
    count text = .ok value ↔ Counts text value := by
  have fits : 0 < 2 ^ 64 := by
    decide
  constructor
  · intro counted
    obtain ⟨digits, someDigits, chars, read⟩ := exists_digits_of_count counted
    obtain ⟨areDigits, isValue, valueFits⟩ := (countFrom_eq_ok_iff fits).mp read
    exact ⟨digits, someDigits, areDigits, chars, isValue, valueFits⟩
  · rintro ⟨digits, someDigits, areDigits, chars, isValue, valueFits⟩
    rw [count_of_digits someDigits areDigits chars, countFrom_eq_ok_iff fits]
    exact ⟨areDigits, isValue, valueFits⟩

end ShapeAudit.Text
