import ShapeAudit.Json.Order
import ShapeAudit.Proofs.Json.Numeral
import ShapeAudit.Proofs.Json.ReadBack
import ShapeAudit.Proofs.Json.Update
import ShapeAudit.Proofs.Text.Count

/-!
# Reading spread text

A value that is spread over lines is read back with its members put in order.
Natural numbers have to fit 64 bits for that, and what stands after them must not
look like more of a number.
-/

namespace ShapeAudit.Json

open Reading

/-! ## Natural numbers -/

theorem isAsciiDigit_of_mem_toDigits {n : Nat} {c : Char} (isMember : c ∈ Nat.toDigits 10 n) :
    Text.isAsciiDigit c = true := by
  have isDigit := Nat.isDigit_of_mem_toDigits (by decide) (by decide) isMember
  simp only [Char.isDigit, Bool.and_eq_true, decide_eq_true_eq] at isDigit
  simp only [Text.isAsciiDigit, Bool.and_eq_true, decide_eq_true_eq]
  exact isDigit

/-- Neither a digit nor a point nor an exponent stands after a value. -/
theorem readAfterWhole_of_follows
    {rest : List Char} (follows : Follows rest) {r : Reading} (next : r.rest = rest)
    (significand : Nat) :
    readAfterWhole false significand 0 true r = .ok (.natural significand, r) := by
  cases rest with
  | nil =>
      rcases follows with isComma | isBreak
      · cases isComma
      · cases isBreak
  | cons c tail =>
      have isMark : c = ',' ∨ c = '\n' := by
        simpa [Follows] using follows
      unfold readAfterWhole
      rw [next]
      rcases isMark with rfl | rfl <;> simp [finishWhole]

theorem readWhole_digits
    {digits rest : List Char} (areDigits : ∀ c ∈ digits, Text.isAsciiDigit c = true)
    (follows : Follows rest) {significand : Nat}
    (small : Nat.ofDigitChars 10 digits significand ≤ greatest) (r : Reading) :
    ∃ after,
      readWhole false significand r (digits ++ rest) =
          .ok (.natural (Nat.ofDigitChars 10 digits significand), after) ∧
        after.rest = rest := by
  induction digits generalizing significand r with
  | nil =>
      cases rest with
      | nil =>
          rcases follows with isComma | isBreak
          · cases isComma
          · cases isBreak
      | cons c tail =>
          have isMark : c = ',' ∨ c = '\n' := by
            simpa [Follows] using follows
          have notDigit : Text.isAsciiDigit c = false := by
            rcases isMark with rfl | rfl <;> rfl
          refine ⟨{ r with rest := c :: tail }, ?_, rfl⟩
          rw [List.nil_append, readWhole.eq_def]
          simp only [notDigit]
          exact readAfterWhole_of_follows follows rfl significand
  | cons c digits inductionHypothesis =>
      have isDigit := areDigits c List.mem_cons_self
      rw [Nat.ofDigitChars_cons] at small
      have sameNext : 10 * significand + (c.toNat - '0'.toNat) =
          significand * 10 + (c.toNat - 48) := by
        rw [Nat.mul_comm]
        rfl
      rw [sameNext] at small
      have fits : ¬ greatest < significand * 10 + (c.toNat - 48) :=
        Nat.not_lt.mpr (Nat.le_trans (Text.le_ofDigitChars digits _) small)
      obtain ⟨after, reads, afterRest⟩ := inductionHypothesis
        (fun d isLater => areDigits d (List.mem_cons_of_mem c isLater)) small
        (r.past c (digits ++ rest))
      refine ⟨after, ?_, afterRest⟩
      rw [List.cons_append, readWhole.eq_def, Nat.ofDigitChars_cons, sameNext, ← reads]
      simp [isDigit, fits]

/-- The digits of a natural number of 64 bits are read as this number. -/
theorem readNumber_digits
    {n : Nat} (small : n ≤ greatest) {rest : List Char} (follows : Follows rest)
    {r : Reading} (next : r.rest = Nat.toDigits 10 n ++ rest) :
    ∃ after, readNumber false r = .ok (.natural n, after) ∧ after.rest = rest := by
  by_cases isZero : n = 0
  · subst isZero
    have here : r.rest = '0' :: rest := by
      rw [next]
      rfl
    refine ⟨r.past '0' rest, ?_, past_rest _ _ _⟩
    have finished := readAfterWhole_of_follows follows (past_rest r '0' rest) 0
    cases rest with
    | nil =>
        simp only [readNumber, here]
        exact finished
    | cons c tail =>
        have isMark : c = ',' ∨ c = '\n' := by
          simpa [Follows] using follows
        have notDigit : Text.isAsciiDigit c = false := by
          rcases isMark with rfl | rfl <;> rfl
        simp only [readNumber, here, notDigit]
        exact finished
  · have firstNotZero := head?_toDigits_ne_zero isZero
    have areDigits : ∀ c ∈ Nat.toDigits 10 n, Text.isAsciiDigit c = true := by
      intro c isMember
      exact isAsciiDigit_of_mem_toDigits isMember
    have value : Nat.ofDigitChars 10 (Nat.toDigits 10 n) 0 = n := Nat.ofDigitChars_ten_toDigits
    cases digits : Nat.toDigits 10 n with
    | nil =>
        exact absurd digits Nat.toDigits_ne_nil
    | cons c tail =>
        rw [digits] at firstNotZero areDigits value next
        have notZero : c ≠ '0' := by
          simpa using firstNotZero
        have isDigit := areDigits c List.mem_cons_self
        have tailValue : Nat.ofDigitChars 10 tail (c.toNat - 48) = n := by
          rw [Nat.ofDigitChars_cons, Nat.mul_zero, Nat.zero_add] at value
          exact value
        obtain ⟨after, reads, afterRest⟩ := readWhole_digits
          (fun d isLater => areDigits d (List.mem_cons_of_mem c isLater)) follows
          (tailValue.symm ▸ small) (r.past c (tail ++ rest))
        refine ⟨after, ?_, afterRest⟩
        rw [tailValue] at reads
        simp only [readNumber, next, List.cons_append, notZero, isDigit, if_true, if_false]
        exact reads

/-! ## Values read with their members in order -/

theorem readsAs_text (limit depth : Nat) (value : String) :
    ReadsAs arrange (limit + 1) depth (text value) where
  opens := (legible_text limit depth value).opens
  takes := fun r rest _ here => (legible_text limit depth value).takes r rest here

theorem readWord_chars
    (value : Json) (expected : List Char) {r : Reading} {rest : List Char}
    (next : r.rest = expected ++ rest) :
    ∃ after, readWord value expected r = .ok (value, after) ∧ after.rest = rest := by
  induction expected generalizing r with
  | nil =>
      exact ⟨r, rfl, next⟩
  | cons c expected inductionHypothesis =>
      obtain ⟨after, reads, afterRest⟩ :=
        inductionHypothesis (past_rest r c (expected ++ rest))
      refine ⟨after, ?_, afterRest⟩
      simp only [readWord, next, List.cons_append, if_true]
      exact reads

theorem readsAs_bool (limit depth : Nat) (value : Bool) :
    ReadsAs arrange (limit + 1) depth (bool value) := by
  cases value with
  | true =>
      refine ⟨⟨'t', _, rfl, rfl, by decide⟩, fun r rest _ here => ?_⟩
      change r.skip.rest = 't' :: (['r', 'u', 'e'] ++ rest) at here
      obtain ⟨after, reads, afterRest⟩ :=
        readWord_chars (bool true) ['r', 'u', 'e'] (past_rest r.skip 't' _)
      refine ⟨after, ?_, afterRest⟩
      rw [readValue]
      simp only [here]
      exact reads
  | false =>
      refine ⟨⟨'f', _, rfl, rfl, by decide⟩, fun r rest _ here => ?_⟩
      change r.skip.rest = 'f' :: (['a', 'l', 's', 'e'] ++ rest) at here
      obtain ⟨after, reads, afterRest⟩ :=
        readWord_chars (bool false) ['a', 'l', 's', 'e'] (past_rest r.skip 'f' _)
      refine ⟨after, ?_, afterRest⟩
      rw [readValue]
      simp only [here]
      exact reads

theorem readsAs_ofNat (limit depth : Nat) {n : Nat} (small : n ≤ greatest) :
    ReadsAs arrange (limit + 1) depth (ofNat n) := by
  have spelled : prettyChars depth (ofNat n) = Nat.toDigits 10 n := Number.toList_decimal n
  cases digits : Nat.toDigits 10 n with
  | nil =>
      exact absurd digits Nat.toDigits_ne_nil
  | cons c tail =>
      have isDigit : Text.isAsciiDigit c = true :=
        isAsciiDigit_of_mem_toDigits (digits ▸ List.mem_cons_self)
      have differs : ∀ other, Text.isAsciiDigit other = false → c ≠ other := by
        rintro other notDigit rfl
        rw [isDigit] at notDigit
        cases notDigit
      refine ⟨⟨c, tail, spelled.trans digits, ?_, differs ']' rfl⟩, fun r rest follows here => ?_⟩
      · simp [isGap, differs ' ' rfl, differs '\n' rfl, differs '\t' rfl, differs '\r' rfl]
      · have there : r.skip.rest = c :: (tail ++ rest) := by
          rw [here, spelled, digits]
          rfl
        obtain ⟨after, reads, afterRest⟩ :=
          readNumber_digits small follows (here.trans (congrArg (· ++ rest) spelled))
        refine ⟨after, ?_, afterRest⟩
        rw [readValue]
        simp only [there, differs 'n' rfl, differs 't' rfl, differs 'f' rfl, differs '"' rfl,
          differs '-' rfl, isDigit, if_true, if_false, reads]
        rfl

theorem arrangeItems_eq_map (items : List Json) : arrangeItems items = items.map arrange := by
  induction items with
  | nil =>
      rfl
  | cons item items inductionHypothesis =>
      rw [arrangeItems, inductionHypothesis, List.map_cons]

theorem arrangeMembers_eq_map (members : List (String × Json)) :
    arrangeMembers members = members.map fun member => (member.1, member.2.arrange) := by
  induction members with
  | nil =>
      rfl
  | cons member members inductionHypothesis =>
      rw [arrangeMembers, inductionHypothesis, List.map_cons]

theorem readsAs_array
    {limit depth : Nat} {items : List Json}
    (readable : ∀ item ∈ items, ReadsAs arrange (limit + 1) (depth + 1) item) :
    ReadsAs arrange (limit + 2) depth (array items) where
  opens := opens_array depth items
  takes := by
    intro r rest _ here
    rw [arrange, arrangeItems_eq_map]
    exact takes_array readable here

theorem readsAs_object
    {limit depth : Nat} {members : List (String × Json)}
    (readable : ∀ member ∈ members, ReadsAs arrange (limit + 1) (depth + 1) member.2) :
    ReadsAs arrange (limit + 2) depth (object members) := by
  cases members with
  | nil =>
      refine ⟨⟨'{', _, rfl, rfl, by decide⟩, fun r rest _ here => ?_⟩
      have inside : (r.skip.past '{' ('}' :: rest)).skip.rest = '}' :: rest := by
        rw [skip_rest, past_rest]
        rfl
      exact ⟨_, readValue_object here (readMembers_close inside _ true []), past_rest _ _ _⟩
  | cons member members =>
      refine ⟨⟨'{', _, rfl, rfl, by decide⟩, fun r rest _ here => ?_⟩
      have shape : prettyChars depth (object (member :: members)) ++ rest =
          '{' :: (prettyMembers (depth + 1) true (member :: members) ++
            (lineAt depth ++ '}' :: rest)) := by
        simp [prettyChars]
      have enough : (member :: members).length <
          (prettyMembers (depth + 1) true (member :: members) ++
            (lineAt depth ++ '}' :: rest)).length + 1 := by
        have bound := length_le_prettyMembers (depth + 1) true (member :: members)
        rw [List.length_append]
        omega
      obtain ⟨after, reads, afterRest⟩ :=
        readMembers_pretty readable depth enough true [] (past_rest r.skip '{' _)
      rw [arrange, arrangeMembers_eq_map]
      exact ⟨after, readValue_object (here.trans shape) reads, afterRest⟩

/-- An object that is spread over lines, with a line break at its end, is read
back with its members in order. -/
theorem read_pretty_object
    {member : String × Json} {members : List (String × Json)}
    (readable : ∀ other ∈ member :: members, ReadsAs arrange 127 1 other.2) :
    read ((object (member :: members)).pretty ++ "\n") =
      .ok (object (member :: members)).arrange := by
  have shape : (object (member :: members)).pretty ++ "\n" = String.ofList
      ('{' :: (prettyMembers 1 true (member :: members) ++ (lineAt 0 ++ ['}', '\n']))) := by
    apply String.toList_inj.mp
    simp [pretty, prettyChars]
  rw [shape, read_of_readEntries (readEntries_spread readable), arrange, arrangeMembers_eq_map]

/-! ## Members in order -/

theorem find?_foldl_insert
    {members : List (String × Json)} (distinct : (members.map Prod.fst).Nodup)
    (kept : List (String × Json)) (name : String) :
    find? name (members.foldl (fun kept member => insert member.1 member.2 kept) kept) =
      (find? name members).or (find? name kept) := by
  induction members generalizing kept with
  | nil =>
      rfl
  | cons member rest inductionHypothesis =>
      obtain ⟨notLater, restDistinct⟩ := List.nodup_cons.mp distinct
      rw [List.foldl_cons, inductionHypothesis restDistinct]
      by_cases same : member.1 = name
      · subst same
        have absent : find? member.1 rest = none := by
          cases found : find? member.1 rest with
          | none =>
              rfl
          | some value =>
              exact absurd (List.mem_map_of_mem (mem_of_find? found)) notLater
        rw [absent, find?_insert_self]
        simp [find?]
      · rw [find?_insert_of_ne (Ne.symm same)]
        simp [find?, same]

/-- If no name is given twice, putting members in order does not change what is
found under a name. -/
theorem find?_ordered
    {members : List (String × Json)} (distinct : (members.map Prod.fst).Nodup) (name : String) :
    find? name (ordered members) = find? name members := by
  rw [ordered, find?_foldl_insert distinct]
  simp [find?]

theorem find?_arrangeMembers (name : String) (members : List (String × Json)) :
    find? name (arrangeMembers members) = (find? name members).map arrange := by
  induction members with
  | nil =>
      rfl
  | cons member members inductionHypothesis =>
      obtain ⟨key, value⟩ := member
      rw [arrangeMembers, find?, find?, inductionHypothesis]
      split <;> rfl

/-- What an arranged object holds under a name. -/
theorem get?_arrange
    {members : List (String × Json)} (distinct : (members.map Prod.fst).Nodup) (name : String) :
    (object members).arrange.get? name = ((object members).get? name).map arrange := by
  have sameNames : ((arrangeMembers members).map Prod.fst).Nodup := by
    rw [arrangeMembers_eq_map, List.map_map]
    exact distinct
  rw [arrange, get?, find?_ordered sameNames, find?_arrangeMembers, get?]

end ShapeAudit.Json
