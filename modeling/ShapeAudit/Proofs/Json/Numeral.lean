import Mathlib.Data.List.Basic
import ShapeAudit.Json.Number

/-!
# Numbers and their texts

A number is known from its text.  An integer is spelled by digits alone, perhaps
after a sign, and a double by a point or an exponent besides.  The text of a
double tells where its significant digits begin and end, because a decimal has
no zero at the end of its digits and no number begins with one.
-/

namespace ShapeAudit.Json

/-! ## Characters of numbers -/

/-- The characters that the text of a number can have. -/
def isNumeric (c : Char) : Bool :=
  c.isDigit || c == '-' || c == '+' || c == '.' || c == 'e'

theorem isNumeric_of_mem_digits {n : Nat} {c : Char} (isDigit : c ∈ Nat.toDigits 10 n) :
    isNumeric c = true := by
  simp [isNumeric, Nat.isDigit_of_mem_toDigits (by decide) (by decide) isDigit]

theorem isNumeric_of_mem_decimal {n : Nat} {c : Char} (isDigit : c ∈ (Text.decimal n).toList) :
    isNumeric c = true := by
  rw [Text.decimal, String.toList_ofList] at isDigit
  exact isNumeric_of_mem_digits isDigit

theorem isNumeric_of_mem_replicate {n : Nat} {c : Char} (isZero : c ∈ List.replicate n '0') :
    isNumeric c = true := by
  rw [List.eq_of_mem_replicate isZero]
  rfl

theorem mem_of_mem_pointed
    {digits : List Char} {c : Char} (isMember : c ∈ Decimal.pointed digits) :
    c = '.' ∨ c ∈ digits := by
  match digits with
  | [] => cases isMember
  | [only] => exact Or.inr isMember
  | first :: second :: rest =>
      simp only [Decimal.pointed, List.mem_cons] at isMember ⊢
      exact or_left_comm.mp isMember

/-- The text of a decimal holds only characters of numbers. -/
theorem isNumeric_of_mem_decimalText
    {d : Decimal} {c : Char} (isMember : c ∈ d.text.toList) :
    isNumeric c = true := by
  simp only [Decimal.text, String.toList_ofList, List.mem_append] at isMember
  rcases isMember with isSign | inBody
  · split at isSign
    · rw [List.mem_singleton.mp isSign]
      rfl
    · cases isSign
  · split at inBody
    · simp only [List.mem_cons, List.not_mem_nil, or_false] at inBody
      rcases inBody with rfl | rfl | rfl <;> rfl
    · simp only [Decimal.layout] at inBody
      have inPadded : ∀ {zeros : Nat},
          c ∈ Nat.toDigits 10 d.digits ++ List.replicate zeros '0' → isNumeric c = true := by
        intro zeros isPadded
        rcases List.mem_append.mp isPadded with isDigit | isZero
        · exact isNumeric_of_mem_digits isDigit
        · exact isNumeric_of_mem_replicate isZero
      split at inBody
      · rcases List.mem_append.mp inBody with inWhole | inPlaces
        · exact inPadded (List.mem_of_mem_take inWhole)
        · rcases List.mem_cons.mp inPlaces with rfl | inPlaces
          · rfl
          · split at inPlaces
            · rw [List.mem_singleton.mp inPlaces]
              rfl
            · exact inPadded (List.mem_of_mem_drop inPlaces)
      · split at inBody
        · simp only [List.mem_cons, List.mem_append] at inBody
          rcases inBody with rfl | rfl | isZero | isDigit
          · rfl
          · rfl
          · exact isNumeric_of_mem_replicate isZero
          · exact isNumeric_of_mem_digits isDigit
        · simp only [List.mem_append, List.mem_cons] at inBody
          rcases inBody with inPointed | rfl | rfl | isDigit
          · rcases mem_of_mem_pointed inPointed with rfl | isDigit
            · rfl
            · exact isNumeric_of_mem_digits isDigit
          · rfl
          · split <;> rfl
          · exact isNumeric_of_mem_digits isDigit

/-- The text of a number holds only characters of numbers. -/
theorem isNumeric_of_mem_numberText
    {number : Number} {c : Char} (isMember : c ∈ number.text.toList) :
    isNumeric c = true := by
  cases number with
  | natural value =>
      exact isNumeric_of_mem_decimal isMember
  | negative magnitude =>
      rw [Number.text, String.toList_append, List.mem_append] at isMember
      rcases isMember with isSign | isDigit
      · rw [List.mem_singleton.mp isSign]
        rfl
      · exact isNumeric_of_mem_decimal isDigit
  | double value =>
      exact isNumeric_of_mem_decimalText isMember

/-! ## Digits -/

theorem eq_of_toDigits_eq {m n : Nat} (same : Nat.toDigits 10 m = Nat.toDigits 10 n) :
    m = n := by
  calc
    m = Nat.ofDigitChars 10 (Nat.toDigits 10 m) 0 := Nat.ofDigitChars_ten_toDigits.symm
    _ = Nat.ofDigitChars 10 (Nat.toDigits 10 n) 0 := by rw [same]
    _ = n := Nat.ofDigitChars_ten_toDigits

theorem head?_toDigits_ne_zero {n : Nat} (nonzero : n ≠ 0) :
    (Nat.toDigits 10 n).head? ≠ some '0' := by
  induction n using Nat.strongRecOn with
  | ind n inductionHypothesis =>
      by_cases small : n < 10
      · rw [Nat.toDigits_of_lt_base small]
        simpa [Nat.digitChar_eq_zero] using nonzero
      · have shorter : n / 10 < n := by
          omega
        have stillNonzero : n / 10 ≠ 0 := by
          omega
        have headKept := inductionHypothesis (n / 10) shorter stillNonzero
        rw [Nat.toDigits_of_base_le (by decide) (by omega)]
        rwa [List.head?_append_of_ne_nil _ Nat.toDigits_ne_nil]

theorem getLast?_toDigits_ne_zero {n : Nat} (lastDigit : n % 10 ≠ 0) :
    (Nat.toDigits 10 n).getLast? ≠ some '0' := by
  by_cases small : n < 10
  · have nonzero : n ≠ 0 := by
      omega
    rw [Nat.toDigits_of_lt_base small]
    simpa [Nat.digitChar_eq_zero] using nonzero
  · rw [Nat.toDigits_of_base_le (by decide) (by omega), List.getLast?_append]
    simpa [Nat.digitChar_eq_zero] using lastDigit

/-- Digits that neither begin nor end with a zero. -/
structure Significant (digits : List Char) : Prop where
  areDigits : ∀ c ∈ digits, c.isDigit = true
  nonempty : digits ≠ []
  first : digits.head? ≠ some '0'
  last : digits.getLast? ≠ some '0'

theorem significant_toDigits {n : Nat} (lastDigit : n % 10 ≠ 0) :
    Significant (Nat.toDigits 10 n) where
  areDigits _ isMember := Nat.isDigit_of_mem_toDigits (by decide) (by decide) isMember
  nonempty := Nat.toDigits_ne_nil
  first := head?_toDigits_ne_zero (by omega)
  last := getLast?_toDigits_ne_zero lastDigit

/-- Zeros before something that does not begin with a zero can be counted. -/
theorem zeros_append_inj
    {first second : Nat} {digits others : List Char}
    (begins : digits.head? ≠ some '0') (othersBegin : others.head? ≠ some '0')
    (same : List.replicate first '0' ++ digits = List.replicate second '0' ++ others) :
    first = second ∧ digits = others := by
  have stripped : ∀ (count : Nat) {rest : List Char}, rest.head? ≠ some '0' →
      (List.replicate count '0' ++ rest).dropWhile (· = '0') = rest := by
    intro count rest restBegins
    rw [List.dropWhile_append_of_pos fun c isZero => by
      simpa using List.eq_of_mem_replicate isZero]
    cases rest with
    | nil =>
        rfl
    | cons c rest =>
        rw [List.dropWhile_cons_of_neg]
        simpa using restBegins
  have sameDigits : digits = others := by
    rw [← stripped first begins, same, stripped second othersBegin]
  have sameLength := congrArg List.length same
  rw [sameDigits, List.length_append, List.length_append, List.length_replicate,
    List.length_replicate] at sameLength
  exact ⟨by omega, sameDigits⟩

/-- Zeros after something that does not end with a zero do not count. -/
theorem eq_of_append_zeros
    {first second : Nat} {digits others : List Char}
    (ends : digits.getLast? ≠ some '0') (othersEnd : others.getLast? ≠ some '0')
    (same : digits ++ List.replicate first '0' = others ++ List.replicate second '0') :
    digits = others := by
  have reversed := congrArg List.reverse same
  simp only [List.reverse_append, List.reverse_replicate] at reversed
  have sameReversed :=
    (zeros_append_inj (by rwa [List.head?_reverse]) (by rwa [List.head?_reverse]) reversed).2
  exact List.reverse_inj.mp sameReversed

/-! ## The layout of a decimal -/

namespace Decimal

/-- What stands before and after the point are the digits, and zeros after them. -/
theorem layout_positional
    (digits : List Char) {point : Int} (range : 0 < point ∧ point ≤ 16) :
    ∃ whole places zeros,
      layout digits point = whole ++ '.' :: places ∧
        (whole.length : Int) = point ∧
          whole ++ places = digits ++ List.replicate zeros '0' := by
  simp only [layout, if_pos range]
  generalize padding : digits ++ List.replicate (point.toNat - digits.length) '0' = padded
  have wide : point.toNat ≤ padded.length := by
    rw [← padding, List.length_append, List.length_replicate]
    omega
  by_cases noPlaces : (padded.drop point.toNat).isEmpty = true
  · -- the digits end at or before the point, and one place is added
    have narrow : padded.length ≤ point.toNat :=
      List.drop_eq_nil_iff.mp (List.isEmpty_iff.mp noPlaces)
    refine ⟨padded, ['0'], point.toNat - digits.length + 1, ?_, by omega, ?_⟩
    · rw [if_pos noPlaces, List.take_of_length_le narrow]
    · rw [← padding, List.append_assoc, List.replicate_succ']
  · refine ⟨padded.take point.toNat, padded.drop point.toNat,
      point.toNat - digits.length, ?_, ?_, ?_⟩
    · rw [if_neg noPlaces]
    · rw [List.length_take, Nat.min_eq_left wide]
      omega
    · rw [List.take_append_drop, padding]

theorem layout_small
    (digits : List Char) {point : Int} (range : -5 < point ∧ point ≤ 0) :
    layout digits point = '0' :: '.' :: (List.replicate (-point).toNat '0' ++ digits) := by
  rw [layout, if_neg (by omega), if_pos range]

/-- The characters of an exponent. -/
def exponentChars (exponent : Int) : List Char :=
  (if exponent < 0 then '-' else '+') :: Nat.toDigits 10 exponent.natAbs

theorem layout_scaled
    (digits : List Char) {point : Int}
    (notPositional : ¬ (0 < point ∧ point ≤ 16)) (notSmall : ¬ (-5 < point ∧ point ≤ 0)) :
    layout digits point = pointed digits ++ 'e' :: exponentChars (point - 1) := by
  rw [layout, if_neg notPositional, if_neg notSmall]
  rfl

theorem exponentChars_injective
    {first second : Int} (same : exponentChars first = exponentChars second) :
    first = second := by
  obtain ⟨sameMark, sameDigits⟩ := List.cons.inj same
  have sameSize : first.natAbs = second.natAbs := eq_of_toDigits_eq sameDigits
  by_cases firstNegative : first < 0 <;> by_cases secondNegative : second < 0 <;>
    simp only [firstNegative, secondNegative, if_true, if_false] at sameMark
  · omega
  · exact absurd sameMark (by decide)
  · exact absurd sameMark (by decide)
  · omega

theorem filter_pointed
    {digits : List Char} (areDigits : ∀ c ∈ digits, c.isDigit = true) :
    (pointed digits).filter (· ≠ '.') = digits := by
  have noPoint : digits.filter (· ≠ '.') = digits := by
    rw [List.filter_eq_self]
    intro c isMember
    have isDigit := areDigits c isMember
    rw [decide_eq_true_iff]
    rintro rfl
    exact absurd isDigit (by decide)
  match digits with
  | [] => rfl
  | [only] => exact noPoint
  | first :: second :: rest =>
      simp only [pointed]
      rw [List.filter_cons, List.filter_cons_of_neg (by decide)]
      rwa [List.filter_cons] at noPoint

/-- The three forms of a layout.  A form with an exponent is told by its letter,
and of the others the one that begins with a zero. -/
inductive Form (digits : List Char) (point : Int) (spelled : List Char) : Prop
  | positional (whole places : List Char) (zeros : Nat)
      (parts : spelled = whole ++ '.' :: places)
      (length : (whole.length : Int) = point)
      (joined : whole ++ places = digits ++ List.replicate zeros '0')
      (onePoint : '.' ∉ whole ∧ '.' ∉ places)
      (noExponent : 'e' ∉ spelled) (begins : spelled.head? = digits.head?)
  | small
      (notAbove : point ≤ 0)
      (parts : spelled = '0' :: '.' :: (List.replicate (-point).toNat '0' ++ digits))
      (noExponent : 'e' ∉ spelled)
  | scaled
      (parts : spelled = pointed digits ++ 'e' :: exponentChars (point - 1))
      (begins : spelled.head? = digits.head?)

section Layouts

variable {digits : List Char} (significant : Significant digits)

include significant

theorem form_of_positional {point : Int} (range : 0 < point ∧ point ≤ 16) :
    Form digits point (layout digits point) := by
  obtain ⟨whole, places, zeros, parts, length, joined⟩ := layout_positional digits range
  have areDigits : ∀ c ∈ whole ++ places, c.isDigit = true := by
    intro c isMember
    rw [joined, List.mem_append] at isMember
    rcases isMember with isDigit | isZero
    · exact significant.areDigits c isDigit
    · rw [List.eq_of_mem_replicate isZero]
      decide
  have noPoint : '.' ∉ whole ++ places := fun isMember =>
    absurd (areDigits '.' isMember) (by decide)
  have noLetter : 'e' ∉ whole ++ places := fun isMember =>
    absurd (areDigits 'e' isMember) (by decide)
  rw [List.mem_append, not_or] at noPoint noLetter
  have wholeNonempty : whole ≠ [] := by
    rintro rfl
    rw [List.length_nil] at length
    omega
  have noExponent : 'e' ∉ layout digits point := by
    rw [parts, List.mem_append, List.mem_cons]
    rintro (inWhole | isPoint | inPlaces)
    · exact noLetter.1 inWhole
    · exact absurd isPoint (by decide)
    · exact noLetter.2 inPlaces
  have begins : (layout digits point).head? = digits.head? := by
    calc
      (layout digits point).head? = whole.head? := by
        rw [parts, List.head?_append_of_ne_nil _ wholeNonempty]
      _ = (whole ++ places).head? := (List.head?_append_of_ne_nil _ wholeNonempty).symm
      _ = digits.head? := by
        rw [joined, List.head?_append_of_ne_nil _ significant.nonempty]
  exact .positional whole places zeros parts length joined noPoint noExponent begins

theorem form_of_small {point : Int} (range : -5 < point ∧ point ≤ 0) :
    Form digits point (layout digits point) := by
  have parts := layout_small digits range
  refine .small range.2 parts ?_
  rw [parts, List.mem_cons, List.mem_cons, List.mem_append]
  rintro (isZero | isPoint | isZero | isDigit)
  · exact absurd isZero (by decide)
  · exact absurd isPoint (by decide)
  · exact absurd (List.eq_of_mem_replicate isZero) (by decide)
  · exact absurd (significant.areDigits 'e' isDigit) (by decide)

theorem form_of_layout (point : Int) : Form digits point (layout digits point) := by
  by_cases positional : 0 < point ∧ point ≤ 16
  · exact form_of_positional significant positional
  · by_cases small : -5 < point ∧ point ≤ 0
    · exact form_of_small significant small
    · have parts := layout_scaled digits positional small
      refine .scaled parts ?_
      rw [parts]
      match digits, significant.nonempty with
      | [only], _ => rfl
      | first :: second :: rest, _ => rfl

end Layouts

theorem exponent_mem_scaled {digits spelled : List Char} {exponent : Int}
    (parts : spelled = pointed digits ++ 'e' :: exponentChars exponent) : 'e' ∈ spelled := by
  rw [parts]
  exact List.mem_append_right _ List.mem_cons_self

theorem exponent_not_mem_exponentChars (exponent : Int) : 'e' ∉ exponentChars exponent := by
  rw [exponentChars, List.mem_cons]
  rintro (isMark | isDigit)
  · split at isMark <;> exact absurd isMark (by decide)
  · exact absurd (Nat.isDigit_of_mem_toDigits (by decide) (by decide) isDigit) (by decide)

theorem exponent_not_mem_pointed
    {digits : List Char} (areDigits : ∀ c ∈ digits, c.isDigit = true) : 'e' ∉ pointed digits := by
  intro isMember
  rcases mem_of_mem_pointed isMember with isPoint | isDigit
  · exact absurd isPoint (by decide)
  · exact absurd (areDigits 'e' isDigit) (by decide)

/-- Significant digits and the place of the point are known from their layout. -/
theorem layout_injective
    {digits others : List Char} (significant : Significant digits)
    (othersSignificant : Significant others) {point otherPoint : Int}
    (same : layout digits point = layout others otherPoint) :
    digits = others ∧ point = otherPoint := by
  have form := form_of_layout significant point
  have otherForm := form_of_layout othersSignificant otherPoint
  rw [← same] at otherForm
  generalize layout digits point = spelled at form otherForm
  cases form with
  | positional whole places zeros parts length joined onePoint noExponent begins =>
      cases otherForm with
      | positional whole' places' zeros' parts' length' joined' =>
          have sameParts := (List.append_cons_inj_of_notMem onePoint.1 onePoint.2).mp
            (parts.symm.trans parts')
          obtain ⟨rfl, -, rfl⟩ := sameParts
          have sameDigits : digits = others :=
            eq_of_append_zeros significant.last othersSignificant.last
              (joined.symm.trans joined')
          exact ⟨sameDigits, length.symm.trans length'⟩
      | small _ parts' =>
          rw [parts', List.head?_cons] at begins
          exact absurd begins.symm significant.first
      | scaled parts' =>
          exact absurd (exponent_mem_scaled parts') noExponent
  | small notAbove parts noExponent =>
      cases otherForm with
      | positional _ _ _ _ _ _ _ _ begins' =>
          rw [parts, List.head?_cons] at begins'
          exact absurd begins'.symm othersSignificant.first
      | small notAbove' parts' =>
          have sameTail := (List.cons.inj (List.cons.inj (parts.symm.trans parts')).2).2
          obtain ⟨sameZeros, sameDigits⟩ :=
            zeros_append_inj significant.first othersSignificant.first sameTail
          exact ⟨sameDigits, by omega⟩
      | scaled parts' =>
          exact absurd (exponent_mem_scaled parts') noExponent
  | scaled parts =>
      cases otherForm with
      | positional _ _ _ _ _ _ _ noExponent' =>
          exact absurd (exponent_mem_scaled parts) noExponent'
      | small _ _ noExponent' =>
          exact absurd (exponent_mem_scaled parts) noExponent'
      | scaled parts' =>
          have noLetter := exponent_not_mem_pointed significant.areDigits
          obtain ⟨samePointed, -, sameExponent⟩ :=
            (List.append_cons_inj_of_notMem noLetter (exponent_not_mem_exponentChars _)).mp
              (parts.symm.trans parts')
          have sameDigits : digits = others := by
            rw [← filter_pointed significant.areDigits, samePointed,
              filter_pointed othersSignificant.areDigits]
          have sameShift := exponentChars_injective sameExponent
          exact ⟨sameDigits, by omega⟩

/-! ## Decimals and numbers are known from their texts -/

/-- The text of a decimal without its sign. -/
def body (d : Decimal) : List Char :=
  if d.digits = 0 then ['0', '.', '0']
  else layout (Nat.toDigits 10 d.digits) ((Nat.toDigits 10 d.digits).length + d.power)

theorem toList_text (d : Decimal) :
    d.text.toList = (if d.negative then ['-'] else []) ++ d.body := by
  rw [text, String.toList_ofList]
  rfl

theorem significant_digits {d : Decimal} (nonzero : d.digits ≠ 0) :
    Significant (Nat.toDigits 10 d.digits) := by
  rcases d.settled with lastDigit | isZero
  · exact significant_toDigits lastDigit
  · exact absurd isZero.1 nonzero

/-- A double has a point or an exponent, and begins with a digit. -/
theorem body_marks (d : Decimal) :
    ('.' ∈ d.body ∨ 'e' ∈ d.body) ∧ ∃ c, d.body.head? = some c ∧ c.isDigit = true := by
  by_cases isZero : d.digits = 0
  · rw [body, if_pos isZero]
    exact ⟨Or.inl (by decide), '0', rfl, by decide⟩
  · rw [body, if_neg isZero]
    have significant := significant_digits isZero
    have form := form_of_layout significant ((Nat.toDigits 10 d.digits).length + d.power)
    have headDigit : ∃ c, (Nat.toDigits 10 d.digits).head? = some c ∧ c.isDigit = true := by
      refine ⟨_, List.head?_eq_some_head significant.nonempty, ?_⟩
      exact significant.areDigits _ (List.head_mem _)
    cases form with
    | positional whole places zeros parts length joined onePoint noExponent begins =>
        refine ⟨Or.inl ?_, begins ▸ headDigit⟩
        rw [parts]
        exact List.mem_append_right _ List.mem_cons_self
    | small notAbove parts noExponent =>
        rw [parts]
        exact ⟨Or.inl (by simp), '0', rfl, by decide⟩
    | scaled parts begins =>
        exact ⟨Or.inr (exponent_mem_scaled parts), begins ▸ headDigit⟩

theorem body_ne_zero_body
    {d : Decimal} (nonzero : d.digits ≠ 0) : d.body ≠ ['0', '.', '0'] := by
  intro isZeroBody
  have significant := significant_digits nonzero
  have form := form_of_layout significant ((Nat.toDigits 10 d.digits).length + d.power)
  rw [body, if_neg nonzero] at isZeroBody
  rw [isZeroBody] at form
  cases form with
  | positional _ _ _ _ _ _ _ _ begins =>
      exact absurd begins.symm significant.first
  | small _ parts =>
      have ends := congrArg List.getLast? (List.cons.inj (List.cons.inj parts).2).2
      rw [List.getLast?_append_of_ne_nil _ significant.nonempty] at ends
      exact significant.last ends.symm
  | scaled parts =>
      exact absurd (exponent_mem_scaled parts) (by decide)

theorem eq_of_body_eq
    {d e : Decimal} (sameSign : d.negative = e.negative) (same : d.body = e.body) : d = e := by
  have sameParts : d.digits = e.digits ∧ d.power = e.power := by
    by_cases isZero : d.digits = 0
    · have zeroBody : e.body = ['0', '.', '0'] := by
        rw [← same, body, if_pos isZero]
      have otherZero : e.digits = 0 := by
        by_contra nonzero
        exact body_ne_zero_body nonzero zeroBody
      have settled := d.settled
      have otherSettled := e.settled
      omega
    · have otherNonzero : e.digits ≠ 0 := by
        intro otherZero
        apply body_ne_zero_body isZero
        rw [same, body, if_pos otherZero]
      rw [body, if_neg isZero, body, if_neg otherNonzero] at same
      obtain ⟨sameDigits, samePoint⟩ :=
        layout_injective (significant_digits isZero) (significant_digits otherNonzero) same
      rw [sameDigits] at samePoint
      exact ⟨eq_of_toDigits_eq sameDigits, by omega⟩
  cases d
  cases e
  simp_all

theorem head?_body_ne_sign (d : Decimal) : d.body.head? ≠ some '-' := by
  obtain ⟨-, c, begins, isDigit⟩ := body_marks d
  rw [begins]
  rintro ⟨⟩
  exact absurd isDigit (by decide)

/-- A decimal is known from its text. -/
theorem text_injective {d e : Decimal} (same : d.text = e.text) : d = e := by
  have sameChars := congrArg String.toList same
  rw [toList_text, toList_text] at sameChars
  have noSign := head?_body_ne_sign d
  have otherNoSign := head?_body_ne_sign e
  cases sign : d.negative <;> cases otherSign : e.negative <;>
    simp only [sign, otherSign, if_true, Bool.false_eq_true, if_false, List.nil_append,
      List.singleton_append] at sameChars
  · exact eq_of_body_eq (sign.trans otherSign.symm) sameChars
  · exact absurd (by rw [sameChars, List.head?_cons]) noSign
  · exact absurd (by rw [← sameChars, List.head?_cons]) otherNoSign
  · exact eq_of_body_eq (sign.trans otherSign.symm) (List.cons.inj sameChars).2

end Decimal

namespace Number

theorem toList_decimal (n : Nat) : (Text.decimal n).toList = Nat.toDigits 10 n :=
  String.toList_ofList

theorem isDigit_of_mem_decimal {n : Nat} {c : Char} (isMember : c ∈ (Text.decimal n).toList) :
    c.isDigit = true := by
  rw [toList_decimal] at isMember
  exact Nat.isDigit_of_mem_toDigits (by decide) (by decide) isMember

theorem eq_of_decimal_eq {m n : Nat} (same : Text.decimal m = Text.decimal n) : m = n := by
  have sameChars := congrArg String.toList same
  rw [toList_decimal, toList_decimal] at sameChars
  exact eq_of_toDigits_eq sameChars

/-- The text of an integer holds digits and signs only. -/
theorem integer_ne_double
    {number : Number} (integral : ∀ c ∈ number.text.toList, c.isDigit = true ∨ c = '-')
    (value : Decimal) : number.text ≠ value.text := by
  intro same
  have marked : ∃ c ∈ value.text.toList, c = '.' ∨ c = 'e' := by
    rw [Decimal.toList_text]
    rcases (Decimal.body_marks value).1 with hasPoint | hasExponent
    · exact ⟨'.', List.mem_append_right _ hasPoint, Or.inl rfl⟩
    · exact ⟨'e', List.mem_append_right _ hasExponent, Or.inr rfl⟩
  obtain ⟨c, isMember, isMark⟩ := marked
  rw [← same] at isMember
  have isIntegral := integral c isMember
  rcases isMark with rfl | rfl <;> exact absurd isIntegral (by decide)

theorem natural_integral (value : Nat) :
    ∀ c ∈ (natural value).text.toList, c.isDigit = true ∨ c = '-' :=
  fun _ isMember => Or.inl (isDigit_of_mem_decimal isMember)

theorem negative_integral (magnitude : Nat) :
    ∀ c ∈ (negative magnitude).text.toList, c.isDigit = true ∨ c = '-' := by
  intro c isMember
  rw [text, String.toList_append, List.mem_append] at isMember
  rcases isMember with isSign | isDigit
  · exact Or.inr (List.mem_singleton.mp isSign)
  · exact Or.inl (isDigit_of_mem_decimal isDigit)

theorem natural_ne_negative (value magnitude : Nat) :
    (natural value).text ≠ (negative magnitude).text := by
  intro same
  have hasSign : '-' ∈ (negative magnitude).text.toList := by
    rw [text, String.toList_append]
    exact List.mem_append_left _ (List.mem_singleton_self _)
  rw [← same] at hasSign
  exact absurd (isDigit_of_mem_decimal hasSign) (by decide)

/-- A number is known from its text. -/
theorem text_injective : Function.Injective text := by
  intro first second same
  cases first with
  | natural value =>
      cases second with
      | natural other => exact congrArg natural (eq_of_decimal_eq same)
      | negative magnitude => exact absurd same (natural_ne_negative value magnitude)
      | double other => exact absurd same (integer_ne_double (natural_integral value) other)
  | negative magnitude =>
      cases second with
      | natural value => exact absurd same.symm (natural_ne_negative value magnitude)
      | negative other =>
          have sameDigits : Text.decimal magnitude = Text.decimal other := by
            simpa [text] using same
          exact congrArg negative (eq_of_decimal_eq sameDigits)
      | double other => exact absurd same (integer_ne_double (negative_integral magnitude) other)
  | double value =>
      cases second with
      | natural other => exact absurd same.symm (integer_ne_double (natural_integral other) value)
      | negative other => exact absurd same.symm (integer_ne_double (negative_integral other) value)
      | double other => exact congrArg double (Decimal.text_injective same)

theorem text_ne_nil (number : Number) : number.text.toList ≠ [] := by
  cases number with
  | natural value =>
      rw [text, toList_decimal]
      exact Nat.toDigits_ne_nil
  | negative magnitude =>
      simp [text]
  | double value =>
      obtain ⟨-, c, begins, -⟩ := Decimal.body_marks value
      rw [text, Decimal.toList_text]
      intro isNil
      rw [(List.append_eq_nil_iff.mp isNil).2] at begins
      cases begins

end Number

end ShapeAudit.Json
