import ShapeAudit.Proofs.Json.Indent
import ShapeAudit.Proofs.Json.ReadBack

/-!
# Values are known from their compact texts

The first character of a compact text tells the sort of the value.  A quoted
text ends where its reader stops, an array or object at its bracket, and a
number where no character of a number follows.  So a compact text that stands
before anything that does not go on with a number can be told from what follows,
and two values with the same compact text are the same value, at any depth and
whatever order the members of an object are in.
-/

namespace ShapeAudit.Json

open Reading

/-! ## Numbers and quoted texts before something else -/

/-- No number goes on into these characters. -/
def EndsNumber (rest : List Char) : Prop :=
  ∀ c ∈ rest.head?, isNumeric c = false

theorem endsNumber_cons {c : Char} (notNumeric : isNumeric c = false) (rest : List Char) :
    EndsNumber (c :: rest) := by
  rintro d ⟨⟩
  exact notNumeric

theorem takeWhile_isNumeric
    (number : Number) {rest : List Char} (ends : EndsNumber rest) :
    (number.text.toList ++ rest).takeWhile isNumeric = number.text.toList := by
  have noneAfter : rest.takeWhile isNumeric = [] := by
    cases rest with
    | nil =>
        rfl
    | cons c rest =>
        rw [List.takeWhile_cons_of_neg]
        simp [ends c rfl]
  rw [List.takeWhile_append_of_pos fun _ => isNumeric_of_mem_numberText, noneAfter,
    List.append_nil]

theorem number_append_inj
    {first second : Number} {rest others : List Char}
    (ends : EndsNumber rest) (othersEnd : EndsNumber others)
    (same : first.text.toList ++ rest = second.text.toList ++ others) :
    first = second ∧ rest = others := by
  have sameChars : first.text.toList = second.text.toList := by
    rw [← takeWhile_isNumeric first ends, same, takeWhile_isNumeric second othersEnd]
  rw [sameChars] at same
  exact ⟨Number.text_injective (String.toList_inj.mp sameChars), List.append_cancel_left same⟩

/-- A reader of quoted texts gives one answer only, so a quoted text can be told
from what follows. -/
theorem quote_append_inj
    {first second : String} {rest others : List Char}
    (same : quote first ++ rest = quote second ++ others) :
    first = second ∧ rest = others := by
  have sameInside :
      first.toList.flatMap escapeChar ++ ['"'] ++ rest =
        second.toList.flatMap escapeChar ++ ['"'] ++ others :=
    (List.cons.inj same).2
  obtain ⟨after, reads, afterRest⟩ := takes_readText first ⟨_, 0, 0⟩ rest rfl
  obtain ⟨otherAfter, readsOther, otherRest⟩ :=
    takes_readText second ⟨_, 0, 0⟩ others sameInside
  rw [reads] at readsOther
  obtain ⟨sameText, sameAfter⟩ := Prod.mk.inj (Except.ok.inj readsOther)
  rw [← afterRest, ← otherRest, sameAfter]
  exact ⟨sameText, rfl⟩

/-! ## First characters -/

/-- What the first character of a compact text tells of its value. -/
inductive Opening where
  | null
  | bool (value : Bool)
  | number
  | text
  | array
  | object

/-- The opening of a value. -/
def opening : Json → Opening
  | null => .null
  | bool value => .bool value
  | number _ => .number
  | text _ => .text
  | array _ => .array
  | object _ => .object

/-- The opening that a character stands for. -/
def openingOf? (c : Char) : Option Opening :=
  if isNumeric c then some .number
  else match c with
    | 'n' => some .null
    | 't' => some (.bool true)
    | 'f' => some (.bool false)
    | '"' => some .text
    | '[' => some .array
    | '{' => some .object
    | _ => none

theorem head?_compactChars (value : Json) (rest : List Char) :
    (compactChars value ++ rest).head?.bind openingOf? = some value.opening := by
  cases value with
  | number value =>
      have head := List.head?_eq_some_head value.text_ne_nil
      have isNumericHead := isNumeric_of_mem_numberText (List.head_mem value.text_ne_nil)
      rw [compactChars, List.head?_append_of_ne_nil _ value.text_ne_nil, head]
      simp [openingOf?, isNumericHead, opening]
  | bool value =>
      cases value <;> rfl
  | null | text _ | array _ | object _ =>
      rfl

theorem opening_eq
    {value other : Json} {rest others : List Char}
    (same : compactChars value ++ rest = compactChars other ++ others) :
    value.opening = other.opening := by
  have opens := head?_compactChars value rest
  rw [same, head?_compactChars other others] at opens
  exact (Option.some.inj opens).symm

/-- No value begins as an array or object ends or goes on. -/
theorem compactChars_ne_of_openingOf?
    (value : Json) {c : Char} (noOpening : openingOf? c = none) (rest others : List Char) :
    compactChars value ++ rest ≠ c :: others := by
  intro same
  have opens := head?_compactChars value rest
  rw [same, List.head?_cons, Option.bind_some, noOpening] at opens
  cases opens

/-! ## Values before something else -/

theorem endsNumber_items (items : List Json) (rest : List Char) :
    EndsNumber (compactItems false items ++ ']' :: rest) := by
  cases items with
  | nil =>
      exact endsNumber_cons (by decide) _
  | cons item items =>
      exact endsNumber_cons (by decide) _

theorem endsNumber_members (members : List (String × Json)) (rest : List Char) :
    EndsNumber (compactMembers false members ++ '}' :: rest) := by
  cases members with
  | nil =>
      exact endsNumber_cons (by decide) _
  | cons member members =>
      exact endsNumber_cons (by decide) _

/-- Items do not begin as their array ends. -/
theorem items_ne_closed
    (first : Bool) (item : Json) (items : List Json) (rest others : List Char) :
    compactItems first (item :: items) ++ rest ≠ ']' :: others := by
  cases first with
  | true =>
      rw [compactItems, if_pos rfl, List.nil_append, List.append_assoc]
      exact compactChars_ne_of_openingOf? item rfl _ _
  | false =>
      intro same
      exact absurd (List.cons.inj same).1 (by decide)

theorem members_ne_closed
    (first : Bool) (member : String × Json) (members : List (String × Json))
    (rest others : List Char) :
    compactMembers first (member :: members) ++ rest ≠ '}' :: others := by
  intro same
  cases first <;> exact absurd (List.cons.inj same).1 (by decide)

mutual

/-- A value before something that no number goes on into. -/
theorem compactChars_append_inj :
    ∀ (value other : Json) {rest others : List Char},
      EndsNumber rest → EndsNumber others →
        compactChars value ++ rest = compactChars other ++ others →
          value = other ∧ rest = others
  | value, other, rest, others, ends, othersEnd, same => by
      have sameOpening := opening_eq same
      cases value with
      | null =>
          cases other with
          | null =>
              exact ⟨rfl, List.append_cancel_left same⟩
          | bool _ | number _ | text _ | array _ | object _ =>
              cases sameOpening
      | bool value =>
          cases other with
          | bool other =>
              cases sameOpening
              exact ⟨rfl, List.append_cancel_left same⟩
          | null | number _ | text _ | array _ | object _ =>
              cases sameOpening
      | number value =>
          cases other with
          | number other =>
              obtain ⟨sameNumber, sameRest⟩ := number_append_inj ends othersEnd same
              exact ⟨congrArg number sameNumber, sameRest⟩
          | null | bool _ | text _ | array _ | object _ =>
              cases sameOpening
      | text value =>
          cases other with
          | text other =>
              obtain ⟨sameText, sameRest⟩ := quote_append_inj same
              exact ⟨congrArg text sameText, sameRest⟩
          | null | bool _ | number _ | array _ | object _ =>
              cases sameOpening
      | array items =>
          cases other with
          | array otherItems =>
              have sameInside :
                  compactItems true items ++ ']' :: rest =
                    compactItems true otherItems ++ ']' :: others := by
                simpa [compactChars] using same
              obtain ⟨sameItems, sameRest⟩ :=
                compactItems_append_inj true items otherItems sameInside
              exact ⟨congrArg array sameItems, sameRest⟩
          | null | bool _ | number _ | text _ | object _ =>
              cases sameOpening
      | object members =>
          cases other with
          | object otherMembers =>
              have sameInside :
                  compactMembers true members ++ '}' :: rest =
                    compactMembers true otherMembers ++ '}' :: others := by
                simpa [compactChars] using same
              obtain ⟨sameMembers, sameRest⟩ :=
                compactMembers_append_inj true members otherMembers sameInside
              exact ⟨congrArg object sameMembers, sameRest⟩
          | null | bool _ | number _ | text _ | array _ =>
              cases sameOpening

theorem compactItems_append_inj :
    ∀ (first : Bool) (items otherItems : List Json) {rest others : List Char},
      compactItems first items ++ ']' :: rest =
          compactItems first otherItems ++ ']' :: others →
        items = otherItems ∧ rest = others
  | _, [], [], _, _, same => ⟨rfl, (List.cons.inj same).2⟩
  | first, [], item :: items, _, _, same =>
      absurd same.symm (items_ne_closed first item items _ _)
  | first, item :: items, [], _, _, same =>
      absurd same (items_ne_closed first item items _ _)
  | first, item :: items, otherItem :: otherItems, rest, others, same => by
      have sameText :
          compactChars item ++ (compactItems false items ++ ']' :: rest) =
            compactChars otherItem ++ (compactItems false otherItems ++ ']' :: others) := by
        cases first <;> simpa [compactItems] using same
      obtain ⟨sameItem, sameLater⟩ :=
        compactChars_append_inj item otherItem (endsNumber_items items rest)
          (endsNumber_items otherItems others) sameText
      obtain ⟨sameItems, sameRest⟩ := compactItems_append_inj false items otherItems sameLater
      exact ⟨by rw [sameItem, sameItems], sameRest⟩

theorem compactMembers_append_inj :
    ∀ (first : Bool) (members otherMembers : List (String × Json)) {rest others : List Char},
      compactMembers first members ++ '}' :: rest =
          compactMembers first otherMembers ++ '}' :: others →
        members = otherMembers ∧ rest = others
  | _, [], [], _, _, same => ⟨rfl, (List.cons.inj same).2⟩
  | first, [], member :: members, _, _, same =>
      absurd same.symm (members_ne_closed first member members _ _)
  | first, member :: members, [], _, _, same =>
      absurd same (members_ne_closed first member members _ _)
  | first, (name, value) :: members, (otherName, otherValue) :: otherMembers, rest, others,
      same => by
      have sameText :
          quote name ++
              (':' :: (compactChars value ++ (compactMembers false members ++ '}' :: rest))) =
            quote otherName ++
              (':' :: (compactChars otherValue ++
                (compactMembers false otherMembers ++ '}' :: others))) := by
        cases first <;> simpa [compactMembers] using same
      obtain ⟨sameName, sameValued⟩ := quote_append_inj sameText
      obtain ⟨sameValue, sameLater⟩ :=
        compactChars_append_inj value otherValue (endsNumber_members members rest)
          (endsNumber_members otherMembers others) (List.cons.inj sameValued).2
      obtain ⟨sameMembers, sameRest⟩ :=
        compactMembers_append_inj false members otherMembers sameLater
      exact ⟨by rw [sameName, sameValue, sameMembers], sameRest⟩

end

/-- A value is known from its compact text. -/
theorem compact_injective : Function.Injective compact := by
  intro value other same
  have sameChars : compactChars value ++ [] = compactChars other ++ [] := by
    rw [List.append_nil, List.append_nil]
    exact String.ofList_injective same
  have endsHere : EndsNumber [] := by
    rintro c ⟨⟩
  exact (compactChars_append_inj value other endsHere endsHere sameChars).1

/-! ## Characters of a compact text -/

theorem visible_of_isNumeric {c : Char} (numeric : isNumeric c = true) : 0x20 ≤ c.toNat := by
  simp only [isNumeric, Bool.or_eq_true, beq_iff_eq] at numeric
  rcases numeric with (((isDigit | rfl) | rfl) | rfl) | rfl
  · have least : 48 ≤ c.toNat := (Char.isDigit_iff_toNat.mp isDigit).1
    omega
  iterate 4 decide

theorem visible_of_mem_comma {first : Bool} {c : Char}
    (isMember : c ∈ if first then [] else [',']) : 0x20 ≤ c.toNat := by
  split at isMember
  · cases isMember
  · rw [List.mem_singleton.mp isMember]
    decide

mutual

/-- A compact text holds no control character. -/
theorem visible_of_mem_compactChars :
    ∀ (value : Json) {c : Char}, c ∈ compactChars value → 0x20 ≤ c.toNat
  | null, c, isMember | bool true, c, isMember | bool false, c, isMember => by
      have allVisible :
          (compactChars null ++ compactChars (bool true) ++ compactChars (bool false)).all
            (fun d => 0x20 ≤ d.toNat) = true := by
        decide
      exact of_decide_eq_true (List.all_eq_true.mp allVisible c (by simp_all))
  | number value, c, isMember => visible_of_isNumeric (isNumeric_of_mem_numberText isMember)
  | text value, c, isMember => visible_of_mem_quote isMember
  | array items, c, isMember => by
      rw [compactChars, List.mem_cons, List.mem_append, List.mem_singleton] at isMember
      rcases isMember with rfl | inItems | rfl
      · decide
      · exact visible_of_mem_compactItems true items inItems
      · decide
  | object members, c, isMember => by
      rw [compactChars, List.mem_cons, List.mem_append, List.mem_singleton] at isMember
      rcases isMember with rfl | inMembers | rfl
      · decide
      · exact visible_of_mem_compactMembers true members inMembers
      · decide

theorem visible_of_mem_compactItems :
    ∀ (first : Bool) (items : List Json) {c : Char},
      c ∈ compactItems first items → 0x20 ≤ c.toNat
  | _, [], _, isMember => by cases isMember
  | first, item :: items, c, isMember => by
      rw [compactItems, List.mem_append, List.mem_append] at isMember
      rcases isMember with (isComma | inItem) | inItems
      · exact visible_of_mem_comma isComma
      · exact visible_of_mem_compactChars item inItem
      · exact visible_of_mem_compactItems false items inItems

theorem visible_of_mem_compactMembers :
    ∀ (first : Bool) (members : List (String × Json)) {c : Char},
      c ∈ compactMembers first members → 0x20 ≤ c.toNat
  | _, [], _, isMember => by cases isMember
  | first, (name, value) :: members, c, isMember => by
      rw [compactMembers, List.mem_append, List.mem_append, List.mem_append, List.mem_cons]
        at isMember
      rcases isMember with ((isComma | inName) | rfl | inValue) | inMembers
      · exact visible_of_mem_comma isComma
      · exact visible_of_mem_quote inName
      · decide
      · exact visible_of_mem_compactChars value inValue
      · exact visible_of_mem_compactMembers false members inMembers

end

end ShapeAudit.Json
