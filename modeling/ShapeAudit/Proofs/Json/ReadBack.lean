import ShapeAudit.Json.Reader
import ShapeAudit.Json.Writer

/-!
# Reading back what was written

A text between quotes is read as the text it was made from, whatever characters
it has.  Arrays and members that are spread over lines are read item by item, so
a value that is made of texts and arrays is read as itself at any depth.
-/

namespace ShapeAudit.Json

open Reading

/-! ## Gaps -/

@[simp] theorem past_rest (r : Reading) (c : Char) (rest : List Char) :
    (r.past c rest).rest = rest := by
  unfold past
  split <;> rfl

theorem skipFrom_rest (r : Reading) (chars : List Char) :
    (r.skipFrom chars).rest = chars.dropWhile isGap := by
  induction chars generalizing r with
  | nil =>
      rfl
  | cons c rest inductionHypothesis =>
      unfold skipFrom
      cases gap : isGap c with
      | true =>
          simp [gap, inductionHypothesis]
      | false =>
          simp [gap]

theorem skip_rest (r : Reading) :
    r.skip.rest = r.rest.dropWhile isGap :=
  skipFrom_rest r r.rest

theorem isGap_lineAt {depth : Nat} {c : Char} (isMember : c ∈ lineAt depth) :
    isGap c = true := by
  rcases List.mem_cons.mp isMember with rfl | isBlank
  · rfl
  · rw [List.eq_of_mem_replicate isBlank]
    rfl

/-- The line break before something is skipped. -/
theorem dropWhile_lineAt
    {c : Char} (notGap : isGap c = false) (depth : Nat) (rest : List Char) :
    (lineAt depth ++ c :: rest).dropWhile isGap = c :: rest := by
  rw [List.dropWhile_append_of_pos fun _ => isGap_lineAt, List.dropWhile_cons_of_neg]
  simp [notGap]

/-! ## Readers and texts -/

/-- A reader takes some characters as a value, whatever stands after them. -/
def Takes
    {α : Type} (reader : Reading → Except ReadError (α × Reading))
    (chars : List Char) (value : α) : Prop :=
  ∀ r rest, r.rest = chars ++ rest →
    ∃ after, reader r = .ok (value, after) ∧ after.rest = rest

/-! ## Quoted text -/

theorem hexValue?_hexDigit :
    ∀ n < 16, Text.hexValue? (Text.hexDigit n) = some n := by
  decide

/-- Four digits that begin with two zeros are read as a number below 256. -/
theorem takes_readHex {n : Nat} (small : n < 256) :
    Takes readHex ['0', '0', Text.hexDigit (n / 16), Text.hexDigit (n % 16)] n := by
  intro r rest next
  have zero : Text.hexValue? '0' = some 0 := by
    decide
  have high := hexValue?_hexDigit (n / 16) (by omega)
  have low := hexValue?_hexDigit (n % 16) (by omega)
  have value : n / 16 * 16 + n % 16 = n := by
    omega
  unfold readHex
  rw [next]
  simp [zero, high, low, value]

/-- The letters of escapes, with the characters that they stand for. -/
def letterEscapes : List (Nat × Char) :=
  [(0x22, '"'), (0x5C, '\\'), (0x08, 'b'), (0x09, 't'), (0x0A, 'n'), (0x0C, 'f'), (0x0D, 'r')]

/-- An escape by a letter is read as the character that it stands for. -/
theorem takes_readEscape_letter
    {c : Char} {letter : Char} (listed : (c.toNat, letter) ∈ letterEscapes) :
    Takes readEscape [letter] c := by
  intro r rest next
  refine ⟨r.past letter rest, ?_, past_rest r letter rest⟩
  have back : Char.ofNat c.toNat = c := Char.ofNat_toNat c
  generalize c.toNat = n at listed back
  subst back
  simp only [List.cons_append, List.nil_append] at next
  simp only [letterEscapes, List.mem_cons, Prod.mk.injEq, List.not_mem_nil, or_false] at listed
  rcases listed with ⟨rfl, rfl⟩ | ⟨rfl, rfl⟩ | ⟨rfl, rfl⟩ | ⟨rfl, rfl⟩ | ⟨rfl, rfl⟩ |
    ⟨rfl, rfl⟩ | ⟨rfl, rfl⟩ <;>
    simp [readEscape, next]

/-- The escape of a control character without a letter is read as it. -/
theorem takes_readEscape_control {c : Char} (control : c.toNat < 0x20) :
    Takes readEscape
      ['u', '0', '0', Text.hexDigit (c.toNat / 16), Text.hexDigit (c.toNat % 16)] c := by
  intro r rest next
  have small : c.toNat < 256 := by
    omega
  have notLow : ¬ (0xDC00 ≤ c.toNat ∧ c.toNat ≤ 0xDFFF) := by
    omega
  have notHigh : ¬ (0xD800 ≤ c.toNat ∧ c.toNat ≤ 0xDBFF) := by
    omega
  obtain ⟨after, read, afterRest⟩ :=
    takes_readHex small (r.past 'u' (_ ++ rest)) rest (past_rest r 'u' _)
  refine ⟨after, ?_, afterRest⟩
  unfold readEscape
  rw [next]
  simp only [List.cons_append, List.nil_append] at read ⊢
  simp [read, bind, Except.bind, notLow, notHigh, Char.ofNat_toNat]

/-- A character between quotes is itself or an escape that is read as it. -/
theorem escapeChar_cases (c : Char) :
    (escapeChar c = [c] ∧ c ≠ '"' ∧ c ≠ '\\' ∧ ¬ c.toNat < 0x20) ∨
      ∃ tail, escapeChar c = '\\' :: tail ∧ Takes readEscape tail c := by
  simp only [escapeChar]
  by_cases listed : ∃ letter, (c.toNat, letter) ∈ letterEscapes
  · obtain ⟨letter, isLetter⟩ := listed
    refine Or.inr ⟨[letter], ?_, takes_readEscape_letter isLetter⟩
    simp only [letterEscapes, List.mem_cons, Prod.mk.injEq, List.not_mem_nil, or_false]
      at isLetter
    rcases isLetter with ⟨size, rfl⟩ | ⟨size, rfl⟩ | ⟨size, rfl⟩ | ⟨size, rfl⟩ | ⟨size, rfl⟩ |
      ⟨size, rfl⟩ | ⟨size, rfl⟩ <;>
      simp [size]
  · simp only [letterEscapes, List.mem_cons, Prod.mk.injEq, List.not_mem_nil, or_false,
      exists_or, exists_eq_right, not_or] at listed
    obtain ⟨notQuote, notBackslash, notB, notT, notN, notF, notR⟩ := listed
    simp only [notQuote, notBackslash, notB, notT, notN, notF, notR, if_false]
    split
    · rename_i control
      exact Or.inr ⟨_, rfl, takes_readEscape_control control⟩
    · rename_i notControl
      refine Or.inl ⟨rfl, ?_, ?_, notControl⟩
      · rintro rfl
        exact notQuote rfl
      · rintro rfl
        exact notBackslash rfl

/-- One character of a text between quotes is read in one step. -/
theorem readTextBody_escapeChar
    (c : Char) (fuel : Nat) (read : List Char) {r : Reading} {rest : List Char}
    (next : r.rest = escapeChar c ++ rest) :
    ∃ after, readTextBody (fuel + 1) read r = readTextBody fuel (c :: read) after ∧
      after.rest = rest := by
  rcases escapeChar_cases c with ⟨itself, notQuote, notBackslash, notControl⟩ |
    ⟨tail, escaped, takes⟩
  · rw [itself] at next
    simp only [List.cons_append, List.nil_append] at next
    refine ⟨r.past c rest, ?_, past_rest r c rest⟩
    rw [readTextBody]
    simp [next, notQuote, notBackslash, notControl]
  · rw [escaped] at next
    obtain ⟨after, readsEscape, afterRest⟩ :=
      takes (r.past '\\' (tail ++ rest)) rest (past_rest r '\\' _)
    refine ⟨after, ?_, afterRest⟩
    rw [readTextBody]
    simp [next, readsEscape, bind, Except.bind]

theorem readTextBody_escaped
    (chars : List Char) {fuel : Nat} (enough : chars.length < fuel) (read : List Char)
    {r : Reading} {rest : List Char}
    (next : r.rest = chars.flatMap escapeChar ++ '"' :: rest) :
    ∃ after, readTextBody fuel read r = .ok (String.ofList (read.reverse ++ chars), after) ∧
      after.rest = rest := by
  induction chars generalizing fuel read r with
  | nil =>
      obtain ⟨fuel, rfl⟩ := Nat.exists_eq_succ_of_ne_zero (Nat.ne_of_gt enough)
      simp only [List.flatMap_nil, List.nil_append] at next
      refine ⟨r.past '"' rest, ?_, past_rest r '"' rest⟩
      rw [Nat.succ_eq_add_one, readTextBody]
      simp [next]
  | cons c chars inductionHypothesis =>
      rw [List.length_cons] at enough
      obtain ⟨fuel, rfl⟩ := Nat.exists_eq_succ_of_ne_zero (Nat.ne_of_gt (Nat.zero_lt_of_lt enough))
      rw [List.flatMap_cons, List.append_assoc] at next
      have enoughLeft : chars.length < fuel := by
        omega
      obtain ⟨middle, step, middleRest⟩ := readTextBody_escapeChar c fuel read next
      obtain ⟨after, reads, afterRest⟩ :=
        inductionHypothesis enoughLeft (c :: read) middleRest
      refine ⟨after, ?_, afterRest⟩
      rw [Nat.succ_eq_add_one, step, reads]
      simp

theorem length_le_flatMap_escapeChar (chars : List Char) :
    chars.length ≤ (chars.flatMap escapeChar).length := by
  induction chars with
  | nil =>
      exact Nat.zero_le _
  | cons c chars inductionHypothesis =>
      have oneOrMore : 0 < (escapeChar c).length := by
        rcases escapeChar_cases c with ⟨itself, -⟩ | ⟨tail, escaped, -⟩
        · simp [itself]
        · simp [escaped]
      rw [List.flatMap_cons, List.length_append, List.length_cons]
      omega

/-- What stands between quotes is read as the text it was made from. -/
theorem takes_readText (value : String) :
    Takes readText (value.toList.flatMap escapeChar ++ ['"']) value := by
  intro r rest next
  rw [List.append_assoc, List.singleton_append] at next
  have enough : value.toList.length < r.rest.length + 1 := by
    have bound := length_le_flatMap_escapeChar value.toList
    rw [next, List.length_append]
    omega
  obtain ⟨after, reads, afterRest⟩ := readTextBody_escaped value.toList enough [] next
  refine ⟨after, ?_, afterRest⟩
  rw [readText, reads]
  simp

/-! ## Values spread over lines -/

/-- A value that stands at a depth is read as itself, by a reader with a limit on
how deep arrays and objects nest. -/
structure Legible (limit depth : Nat) (value : Json) : Prop where
  /-- Its text begins with a character that neither is skipped nor closes an
  array. -/
  opens : ∃ c tail, prettyChars depth value = c :: tail ∧ isGap c = false ∧ c ≠ ']'
  /-- Its text is read as it, whatever stands between it and what was read before. -/
  takes : ∀ r rest, r.skip.rest = prettyChars depth value ++ rest →
    ∃ after, readValue limit r = .ok (value, after) ∧ after.rest = rest

/-- What stands after an item or a member that is not the last one, or after the
last one. -/
def Follows (rest : List Char) : Prop :=
  rest.head? = some ',' ∨ rest.head? = some '\n'

/-- A value that stands at a depth is seen as a value by a reader with a limit on
how deep arrays and objects nest. -/
structure ReadsAs (seen : Json → Json) (limit depth : Nat) (value : Json) : Prop where
  /-- Its text begins with a character that neither is skipped nor closes an
  array. -/
  opens : ∃ c tail, prettyChars depth value = c :: tail ∧ isGap c = false ∧ c ≠ ']'
  /-- Its text is read, whatever stands between it and what was read before. -/
  takes : ∀ r rest, Follows rest → r.skip.rest = prettyChars depth value ++ rest →
    ∃ after, readValue limit r = .ok (seen value, after) ∧ after.rest = rest

theorem Legible.readsAs
    {limit depth : Nat} {value : Json} (legible : Legible limit depth value) :
    ReadsAs id limit depth value where
  opens := legible.opens
  takes := fun r rest _ here => legible.takes r rest here

theorem legible_text (limit depth : Nat) (value : String) :
    Legible (limit + 1) depth (text value) where
  opens := ⟨'"', _, rfl, rfl, by decide⟩
  takes := by
    intro r rest here
    change r.skip.rest = '"' :: (value.toList.flatMap escapeChar ++ ['"'] ++ rest) at here
    obtain ⟨after, reads, afterRest⟩ :=
      takes_readText value (r.skip.past '"' _) rest (past_rest _ _ _)
    refine ⟨after, ?_, afterRest⟩
    rw [readValue]
    simp only [here]
    simp only [reads, bind, Except.bind]
    simp

/-! ## Arrays -/

section Items

variable {α : Type} {readItem : Reading → Except ReadError (α × Reading)} {r : Reading}

theorem readItems_close
    {rest : List Char} (here : r.skip.rest = ']' :: rest)
    (fuel : Nat) (first : Bool) (read : List α) :
    readItems readItem (fuel + 1) first read r = .ok (read.reverse, r.skip.past ']' rest) := by
  rw [readItems]
  simp only [here]

/-- The first item stands right after the opening bracket. -/
theorem readItems_first
    {c : Char} {rest : List Char} (here : r.skip.rest = c :: rest) (notClosing : c ≠ ']')
    {item : α} {after : Reading} (reads : readItem r.skip = .ok (item, after))
    (fuel : Nat) (read : List α) :
    readItems readItem (fuel + 1) true read r =
      readItems readItem fuel false (item :: read) after := by
  rw [readItems]
  simp [here, reads, bind, Except.bind]

/-- Any other item stands after a comma. -/
theorem readItems_next
    {rest : List Char} (comma : r.skip.rest = ',' :: rest)
    {c : Char} {others : List Char}
    (here : (r.skip.past ',' rest).skip.rest = c :: others) (notClosing : c ≠ ']')
    {item : α} {after : Reading}
    (reads : readItem (r.skip.past ',' rest).skip = .ok (item, after))
    (fuel : Nat) (read : List α) :
    readItems readItem (fuel + 1) false read r =
      readItems readItem fuel false (item :: read) after := by
  have notEnd : ∀ tail, c :: others = ']' :: tail → False := by
    intro tail closing
    exact notClosing (List.cons.inj closing).1
  rw [readItems]
  simp [comma, here, reads, bind, Except.bind]

end Items

theorem follows_prettyItems
    (depth outer : Nat) (items : List Json) (rest : List Char) :
    Follows (prettyItems depth false items ++ (lineAt outer ++ rest)) := by
  cases items with
  | nil =>
      exact .inr rfl
  | cons item items =>
      exact .inl rfl

/-- Items that can be read are read one after the other. -/
theorem readItems_pretty
    {seen : Json → Json} {limit depth : Nat} {items : List Json}
    (readable : ∀ item ∈ items, ReadsAs seen limit depth item)
    (outer : Nat) {fuel : Nat} (enough : items.length < fuel)
    (first : Bool) (read : List Json) {r : Reading} {rest : List Char}
    (next : r.rest = prettyItems depth first items ++ (lineAt outer ++ ']' :: rest)) :
    ∃ after,
      readItems (readValue limit) fuel first read r =
          .ok (read.reverse ++ items.map seen, after) ∧
        after.rest = rest := by
  induction items generalizing fuel first read r with
  | nil =>
      obtain ⟨fuel, rfl⟩ := Nat.exists_eq_succ_of_ne_zero (Nat.ne_of_gt enough)
      have here : r.skip.rest = ']' :: rest := by
        rw [skip_rest, next, prettyItems, List.nil_append, dropWhile_lineAt rfl]
      refine ⟨r.skip.past ']' rest, ?_, past_rest _ _ _⟩
      rw [readItems_close here, List.map_nil, List.append_nil]
  | cons item items inductionHypothesis =>
      rw [List.length_cons] at enough
      obtain ⟨fuel, rfl⟩ := Nat.exists_eq_succ_of_ne_zero (Nat.ne_of_gt (Nat.zero_lt_of_lt enough))
      have enoughLeft : items.length < fuel := by
        omega
      have itemReadable := readable item List.mem_cons_self
      have othersReadable : ∀ other ∈ items, ReadsAs seen limit depth other := by
        intro other isOther
        exact readable other (List.mem_cons_of_mem item isOther)
      obtain ⟨c, tail, itemText, notGap, notClosing⟩ := itemReadable.opens
      have follows := follows_prettyItems depth outer items (']' :: rest)
      -- what stands after this item
      generalize others : prettyItems depth false items ++ (lineAt outer ++ ']' :: rest) = later
        at inductionHypothesis follows
      have opened : ∀ start : Reading, start.rest = lineAt depth ++ (prettyChars depth item ++ later) →
          start.skip.rest = c :: (tail ++ later) := by
        intro start startsWith
        rw [skip_rest, startsWith, itemText, List.cons_append, dropWhile_lineAt notGap]
      cases first with
      | true =>
          have here : r.skip.rest = c :: (tail ++ later) := by
            apply opened
            rw [next, ← others]
            simp [prettyItems]
          obtain ⟨after, reads, afterRest⟩ := itemReadable.takes r.skip later follows (by
            rw [skip_rest, here, itemText, List.dropWhile_cons_of_neg (by simp [notGap])]
            rfl)
          obtain ⟨final, readsOthers, finalRest⟩ := inductionHypothesis othersReadable enoughLeft
            false (seen item :: read) (afterRest.trans others.symm)
          refine ⟨final, ?_, finalRest⟩
          rw [readItems_first here notClosing reads, readsOthers]
          simp
      | false =>
          have comma : r.skip.rest = ',' :: (lineAt depth ++ (prettyChars depth item ++ later)) := by
            rw [skip_rest, next, ← others]
            simp [prettyItems, isGap]
          have here := opened (r.skip.past ',' (lineAt depth ++ (prettyChars depth item ++ later)))
            (past_rest _ _ _)
          obtain ⟨after, reads, afterRest⟩ := itemReadable.takes
            (r.skip.past ',' (lineAt depth ++ (prettyChars depth item ++ later))).skip later
            follows (by
              rw [skip_rest, here, itemText, List.dropWhile_cons_of_neg (by simp [notGap])]
              rfl)
          obtain ⟨final, readsOthers, finalRest⟩ := inductionHypothesis othersReadable enoughLeft
            false (seen item :: read) (afterRest.trans others.symm)
          refine ⟨final, ?_, finalRest⟩
          rw [readItems_next comma here notClosing reads, readsOthers]
          simp

theorem length_le_prettyItems (depth : Nat) (first : Bool) (items : List Json) :
    items.length ≤ (prettyItems depth first items).length := by
  induction items generalizing first with
  | nil =>
      exact Nat.zero_le _
  | cons item items inductionHypothesis =>
      have others := inductionHypothesis false
      simp only [prettyItems, lineAt, List.length_append, List.length_cons]
      omega

/-- An array is read when its items are. -/
theorem readValue_array
    {limit : Nat} {r : Reading} {rest : List Char} (here : r.skip.rest = '[' :: rest)
    {items : List Json} {after : Reading}
    (reads : readItems (readValue (limit + 1)) (rest.length + 1) true [] (r.skip.past '[' rest) =
      .ok (items, after)) :
    readValue (limit + 2) r = .ok (array items, after) := by
  have notDigit : Text.isAsciiDigit '[' = false := by
    decide
  rw [readValue]
  simp [here, notDigit, reads, bind, Except.bind]

/-- The text of an array whose items can be read is read. -/
theorem takes_array
    {seen : Json → Json} {limit depth : Nat} {items : List Json}
    (readable : ∀ item ∈ items, ReadsAs seen (limit + 1) (depth + 1) item)
    {r : Reading} {rest : List Char}
    (here : r.skip.rest = prettyChars depth (array items) ++ rest) :
    ∃ after, readValue (limit + 2) r = .ok (array (items.map seen), after) ∧
      after.rest = rest := by
  cases items with
  | nil =>
      have inside : (r.skip.past '[' (']' :: rest)).skip.rest = ']' :: rest := by
        rw [skip_rest, past_rest]
        rfl
      exact ⟨_, readValue_array here (readItems_close inside _ true []), past_rest _ _ _⟩
  | cons item items =>
      have shape : prettyChars depth (array (item :: items)) ++ rest =
          '[' :: (prettyItems (depth + 1) true (item :: items) ++ (lineAt depth ++ ']' :: rest)) := by
        simp [prettyChars]
      have enough : (item :: items).length <
          (prettyItems (depth + 1) true (item :: items) ++ (lineAt depth ++ ']' :: rest)).length +
            1 := by
        have bound := length_le_prettyItems (depth + 1) true (item :: items)
        rw [List.length_append]
        omega
      obtain ⟨after, reads, afterRest⟩ :=
        readItems_pretty readable depth enough true [] (past_rest r.skip '[' _)
      exact ⟨after, readValue_array (here.trans shape) reads, afterRest⟩

/-- The text of an array begins with its bracket. -/
theorem opens_array (depth : Nat) (items : List Json) :
    ∃ c tail, prettyChars depth (array items) = c :: tail ∧ isGap c = false ∧ c ≠ ']' := by
  cases items with
  | nil =>
      exact ⟨'[', _, rfl, rfl, by decide⟩
  | cons item items =>
      exact ⟨'[', _, rfl, rfl, by decide⟩

/-- An array of legible items is legible. -/
theorem legible_array
    {limit depth : Nat} {items : List Json}
    (legible : ∀ item ∈ items, Legible (limit + 1) (depth + 1) item) :
    Legible (limit + 2) depth (array items) where
  opens := opens_array depth items
  takes := by
    intro r rest here
    have reads := takes_array (fun item isItem => (legible item isItem).readsAs) here
    rwa [List.map_id] at reads

/-! ## Members -/

/-- A quoted name is read as the name of a member. -/
theorem takes_readKey (name : String) :
    Takes readKey (quote name) name := by
  intro r rest next
  have here : r.rest = '"' :: (name.toList.flatMap escapeChar ++ ['"'] ++ rest) := by
    rw [next]
    rfl
  obtain ⟨after, reads, afterRest⟩ :=
    takes_readText name (r.past '"' _) rest (past_rest _ _ _)
  refine ⟨after, ?_, afterRest⟩
  unfold readKey
  simp only [here, reads]

/-- The colon after a name is read. -/
theorem readColon_colon {r : Reading} {rest : List Char} (next : r.rest = ':' :: rest) :
    ∃ after, readColon r = .ok after ∧ after.rest = rest := by
  have here : r.skip.rest = ':' :: rest := by
    rw [skip_rest, next]
    rfl
  refine ⟨r.skip.past ':' rest, ?_, past_rest _ _ _⟩
  unfold readColon
  simp only [here]

/-- A value of which it is known how it is read before some text is read as a
member, behind its name and the colon. -/
theorem reads_member
    {limit depth : Nat} {value seen : Json} {rest : List Char}
    (opens : ∃ c tail, prettyChars depth value = c :: tail ∧ isGap c = false ∧ c ≠ ']')
    (takes : ∀ start : Reading, start.skip.rest = prettyChars depth value ++ rest →
      ∃ after, readValue limit start = .ok (seen, after) ∧ after.rest = rest)
    (name : String) {r : Reading}
    (next : r.rest = quote name ++ ':' :: ' ' :: (prettyChars depth value ++ rest)) :
    ∃ afterName afterColon after,
      readKey r = .ok (name, afterName) ∧ readColon afterName = .ok afterColon ∧
        readValue limit afterColon = .ok (seen, after) ∧ after.rest = rest := by
  obtain ⟨afterName, readsName, nameRest⟩ := takes_readKey name r _ next
  obtain ⟨afterColon, readsColon, colonRest⟩ := readColon_colon nameRest
  obtain ⟨c, tail, valueText, notGap, -⟩ := opens
  have here : afterColon.skip.rest = prettyChars depth value ++ rest := by
    rw [skip_rest, colonRest, valueText, List.dropWhile_cons_of_pos rfl, List.cons_append,
      List.dropWhile_cons_of_neg (by simp [notGap])]
  obtain ⟨after, readsValue, afterRest⟩ := takes afterColon here
  exact ⟨afterName, afterColon, after, readsName, readsColon, readsValue, afterRest⟩

section Members

variable {readItem : Reading → Except ReadError (Json × Reading)} {r : Reading}

theorem readMembers_close
    {rest : List Char} (here : r.skip.rest = '}' :: rest)
    (fuel : Nat) (first : Bool) (read : List (String × Json)) :
    readMembers readItem (fuel + 1) first read r = .ok (read.reverse, r.skip.past '}' rest) := by
  rw [readMembers]
  simp only [here]

/-- The first member stands right after the opening brace. -/
theorem readMembers_first
    {rest : List Char} (here : r.skip.rest = '"' :: rest)
    {name : String} {value : Json} {afterName afterColon after : Reading}
    (readsName : readKey r.skip = .ok (name, afterName))
    (readsColon : readColon afterName = .ok afterColon)
    (readsValue : readItem afterColon = .ok (value, after))
    (fuel : Nat) (read : List (String × Json)) :
    readMembers readItem (fuel + 1) true read r =
      readMembers readItem fuel false ((name, value) :: read) after := by
  rw [readMembers]
  simp [here, readsName, readsColon, readsValue, bind, Except.bind]

/-- Any other member stands after a comma. -/
theorem readMembers_next
    {rest : List Char} (comma : r.skip.rest = ',' :: rest)
    {name : String} {value : Json} {afterName afterColon after : Reading}
    (readsName : readKey (r.skip.past ',' rest).skip = .ok (name, afterName))
    (readsColon : readColon afterName = .ok afterColon)
    (readsValue : readItem afterColon = .ok (value, after))
    (fuel : Nat) (read : List (String × Json)) :
    readMembers readItem (fuel + 1) false read r =
      readMembers readItem fuel false ((name, value) :: read) after := by
  rw [readMembers]
  simp [comma, readsName, readsColon, readsValue, bind, Except.bind]

end Members

/-- One member on a line of its own is read in one step. -/
theorem readMembers_member
    {limit depth : Nat} {value seen : Json} {rest : List Char}
    (opens : ∃ c tail, prettyChars depth value = c :: tail ∧ isGap c = false ∧ c ≠ ']')
    (takes : ∀ start : Reading, start.skip.rest = prettyChars depth value ++ rest →
      ∃ after, readValue limit start = .ok (seen, after) ∧ after.rest = rest)
    (name : String) (fuel : Nat) (first : Bool) (read : List (String × Json)) {r : Reading}
    (next : r.rest = (if first then [] else [',']) ++ (lineAt depth ++
      (quote name ++ ':' :: ' ' :: (prettyChars depth value ++ rest)))) :
    ∃ after,
      readMembers (readValue limit) (fuel + 1) first read r =
          readMembers (readValue limit) fuel false ((name, seen) :: read) after ∧
        after.rest = rest := by
  generalize shown : quote name ++ ':' :: ' ' :: (prettyChars depth value ++ rest) = memberText
    at next
  have opened : ∀ start : Reading, start.rest = lineAt depth ++ memberText →
      start.skip.rest = memberText := by
    intro start startsWith
    rw [skip_rest, startsWith, ← shown]
    exact dropWhile_lineAt rfl depth _
  cases first with
  | true =>
      have here := opened r next
      obtain ⟨afterName, afterColon, after, readsName, readsColon, readsValue, afterRest⟩ :=
        reads_member opens takes name (here.trans shown.symm)
      exact ⟨after,
        readMembers_first (here.trans shown.symm) readsName readsColon readsValue fuel read,
        afterRest⟩
  | false =>
      have comma : r.skip.rest = ',' :: (lineAt depth ++ memberText) := by
        rw [skip_rest, next]
        rfl
      have here := opened (r.skip.past ',' (lineAt depth ++ memberText)) (past_rest _ _ _)
      obtain ⟨afterName, afterColon, after, readsName, readsColon, readsValue, afterRest⟩ :=
        reads_member opens takes name (here.trans shown.symm)
      exact ⟨after, readMembers_next comma readsName readsColon readsValue fuel read, afterRest⟩

theorem follows_prettyMembers
    (depth outer : Nat) (members : List (String × Json)) (rest : List Char) :
    Follows (prettyMembers depth false members ++ (lineAt outer ++ rest)) := by
  cases members with
  | nil =>
      exact .inr rfl
  | cons member members =>
      exact .inl rfl

/-- Members whose values can be read are read one after the other. -/
theorem readMembers_pretty
    {seen : Json → Json} {limit depth : Nat} {members : List (String × Json)}
    (readable : ∀ member ∈ members, ReadsAs seen limit depth member.2)
    (outer : Nat) {fuel : Nat} (enough : members.length < fuel)
    (first : Bool) (read : List (String × Json)) {r : Reading} {rest : List Char}
    (next : r.rest = prettyMembers depth first members ++ (lineAt outer ++ '}' :: rest)) :
    ∃ after,
      readMembers (readValue limit) fuel first read r =
          .ok (read.reverse ++ members.map fun member => (member.1, seen member.2), after) ∧
        after.rest = rest := by
  induction members generalizing fuel first read r with
  | nil =>
      obtain ⟨fuel, rfl⟩ := Nat.exists_eq_succ_of_ne_zero (Nat.ne_of_gt enough)
      have here : r.skip.rest = '}' :: rest := by
        rw [skip_rest, next, prettyMembers, List.nil_append, dropWhile_lineAt rfl]
      refine ⟨r.skip.past '}' rest, ?_, past_rest _ _ _⟩
      rw [readMembers_close here, List.map_nil, List.append_nil]
  | cons member members inductionHypothesis =>
      obtain ⟨name, value⟩ := member
      rw [List.length_cons] at enough
      obtain ⟨fuel, rfl⟩ := Nat.exists_eq_succ_of_ne_zero (Nat.ne_of_gt (Nat.zero_lt_of_lt enough))
      have enoughLeft : members.length < fuel := by
        omega
      have valueReadable : ReadsAs seen limit depth value :=
        readable (name, value) List.mem_cons_self
      have othersReadable : ∀ other ∈ members, ReadsAs seen limit depth other.2 := by
        intro other isOther
        exact readable other (List.mem_cons_of_mem _ isOther)
      have follows := follows_prettyMembers depth outer members ('}' :: rest)
      obtain ⟨after, step, afterRest⟩ := readMembers_member valueReadable.opens
        (fun start here => valueReadable.takes start _ follows here) name fuel first read
        (next.trans (by simp [prettyMembers]))
      obtain ⟨final, readsOthers, finalRest⟩ := inductionHypothesis othersReadable enoughLeft
        false ((name, seen value) :: read) afterRest
      refine ⟨final, ?_, finalRest⟩
      rw [Nat.succ_eq_add_one, step, readsOthers]
      simp

theorem length_le_prettyMembers
    (depth : Nat) (first : Bool) (members : List (String × Json)) :
    members.length ≤ (prettyMembers depth first members).length := by
  induction members generalizing first with
  | nil =>
      exact Nat.zero_le _
  | cons member members inductionHypothesis =>
      have others := inductionHypothesis false
      simp only [prettyMembers, lineAt, List.length_append, List.length_cons]
      omega

/-! ## One object -/

/-- Reads a text as one object.  Its members come in the order of the text, and
one that is named again does not take the place of the one before. -/
def readEntries (source : String) : Except ReadError (List (String × Json)) :=
  let here := (start source).skip
  match here.rest with
  | '{' :: rest => do
    let (members, end_) ←
      readMembers (readValue 127) (rest.length + 1) true [] (here.past '{' rest)
    finish members end_
  | _ => here.failNext .expectedValue

theorem failNext_ne_ok {α : Type} (r : Reading) (fault : Fault) (value : α) :
    r.failNext fault ≠ .ok value := by
  unfold failNext
  split
  · exact nofun
  · split <;> exact nofun

theorem finish_eq_ok_iff {α : Type} {value result : α} {r : Reading} :
    finish value r = .ok result ↔ value = result ∧ r.skip.rest = [] := by
  simp only [finish]
  split
  · rename_i atEnd
    simp [atEnd]
  · rename_i more
    constructor
    · intro finished
      exact absurd finished (failNext_ne_ok _ _ _)
    · intro atEnd
      exact absurd atEnd.2 more

theorem readEntries_eq_ok_iff {source : String} {members : List (String × Json)} :
    readEntries source = .ok members ↔
      ∃ rest end_, (start source).skip.rest = '{' :: rest ∧
        readMembers (readValue 127) (rest.length + 1) true []
          ((start source).skip.past '{' rest) = .ok (members, end_) ∧
        end_.skip.rest = [] := by
  simp only [readEntries]
  split
  · rename_i rest here
    cases reads : readMembers (readValue 127) (rest.length + 1) true []
      ((start source).skip.past '{' rest) with
    | error fault =>
        simp [here, reads, bind, Except.bind]
    | ok result =>
        obtain ⟨found, end_⟩ := result
        simp [here, reads, bind, Except.bind, finish_eq_ok_iff, and_assoc]
  · rename_i noObject
    constructor
    · intro reads
      exact absurd reads (failNext_ne_ok _ _ _)
    · rintro ⟨rest, -, here, -⟩
      exact absurd here (noObject rest)

/-- An object is read when its members are. -/
theorem readValue_object
    {limit : Nat} {r : Reading} {rest : List Char} (here : r.skip.rest = '{' :: rest)
    {members : List (String × Json)} {after : Reading}
    (reads : readMembers (readValue (limit + 1)) (rest.length + 1) true []
      (r.skip.past '{' rest) = .ok (members, after)) :
    readValue (limit + 2) r = .ok (object (ordered members), after) := by
  have notDigit : Text.isAsciiDigit '{' = false := by
    decide
  rw [readValue]
  simp [here, notDigit, reads, bind, Except.bind]

/-- A legible value is read back from its text. -/
theorem Legible.read_pretty
    {value : Json} (legible : Legible 128 0 value) :
    read value.pretty = .ok value := by
  have here : (start value.pretty).skip.rest = prettyChars 0 value ++ [] := by
    obtain ⟨c, tail, shape, visible, -⟩ := legible.opens
    rw [skip_rest, start, pretty, String.toList_ofList, List.append_nil, shape,
      List.dropWhile_cons_of_neg (by simp [visible])]
  obtain ⟨end_, reads, endRest⟩ := legible.takes _ _ here
  have atEnd : end_.skip.rest = [] := by
    rw [skip_rest, endRest]
    rfl
  simp only [read, readWithin, reads, bind, Except.bind]
  exact finish_eq_ok_iff.mpr ⟨rfl, atEnd⟩

/-- A text that is one object is read as this object. -/
theorem read_of_readEntries
    {source : String} {members : List (String × Json)}
    (reads : readEntries source = .ok members) :
    read source = .ok (object (ordered members)) := by
  obtain ⟨rest, end_, here, readsMembers, atEnd⟩ := readEntries_eq_ok_iff.mp reads
  have readsValue := readValue_object here readsMembers
  simp only [read, readWithin, readsValue, bind, Except.bind]
  exact finish_eq_ok_iff.mpr ⟨rfl, atEnd⟩

/-- Members whose values can be read, between braces and with a line break at the
end, are read. -/
theorem readEntries_spread
    {seen : Json → Json} {members : List (String × Json)}
    (readable : ∀ member ∈ members, ReadsAs seen 127 1 member.2) :
    readEntries (String.ofList
        ('{' :: (prettyMembers 1 true members ++ (lineAt 0 ++ ['}', '\n'])))) =
      .ok (members.map fun member => (member.1, seen member.2)) := by
  generalize inside : prettyMembers 1 true members ++ (lineAt 0 ++ ['}', '\n']) = rest
  have here : (start (String.ofList ('{' :: rest))).skip.rest = '{' :: rest := by
    rw [skip_rest, start, String.toList_ofList]
    rfl
  have enough : members.length < rest.length + 1 := by
    have bound := length_le_prettyMembers 1 true members
    rw [← inside, List.length_append]
    omega
  obtain ⟨end_, reads, endRest⟩ := readMembers_pretty readable 0 enough true []
    ((past_rest (start (String.ofList ('{' :: rest))).skip '{' rest).trans inside.symm)
  refine readEntries_eq_ok_iff.mpr ⟨rest, end_, here, reads, ?_⟩
  rw [skip_rest, endRest]
  rfl

/-- Members whose values are legible, between braces and with a line break at the
end, are read as they are. -/
theorem readEntries_pretty
    {members : List (String × Json)}
    (legible : ∀ member ∈ members, Legible 127 1 member.2) :
    readEntries (String.ofList
        ('{' :: (prettyMembers 1 true members ++ (lineAt 0 ++ ['}', '\n'])))) =
      .ok members := by
  rw [readEntries_spread fun member isMember => (legible member isMember).readsAs]
  simp

/-! ## Objects that are not read -/

/-- Members whose values are legible are read whatever stands after the last one. -/
theorem readMembers_past
    {limit depth : Nat} {members : List (String × Json)}
    (legible : ∀ member ∈ members, Legible limit depth member.2)
    (fuel : Nat) (first : Bool) (read : List (String × Json)) {r : Reading} {rest : List Char}
    (next : r.rest = prettyMembers depth first members ++ rest) :
    ∃ after,
      readMembers (readValue limit) (fuel + members.length) first read r =
          readMembers (readValue limit) fuel (first && members.isEmpty)
            (members.reverse ++ read) after ∧
        after.rest = rest := by
  induction members generalizing first read r with
  | nil =>
      exact ⟨r, by simp, next⟩
  | cons member members inductionHypothesis =>
      obtain ⟨name, value⟩ := member
      have valueLegible : Legible limit depth value :=
        legible (name, value) List.mem_cons_self
      have othersLegible : ∀ other ∈ members, Legible limit depth other.2 := by
        intro other isOther
        exact legible other (List.mem_cons_of_mem _ isOther)
      obtain ⟨after, step, afterRest⟩ := readMembers_member valueLegible.opens
        (fun start here => valueLegible.takes start (prettyMembers depth false members ++ rest) here)
        name (fuel + members.length) first read (next.trans (by simp [prettyMembers]))
      obtain ⟨final, readsOthers, finalRest⟩ := inductionHypothesis othersLegible
        false ((name, value) :: read) afterRest
      refine ⟨final, ?_, finalRest⟩
      rw [List.length_cons, ← Nat.add_assoc, step, readsOthers]
      simp

theorem readKey_ne_ok
    {r : Reading} (noQuote : ∀ others, r.rest ≠ '"' :: others) (key : String × Reading) :
    readKey r ≠ .ok key := by
  rw [readKey]
  split
  · exact failNext_ne_ok _ _ _
  · rename_i others isQuote
    exact absurd isQuote (noQuote others)
  · exact failNext_ne_ok _ _ _
  · exact failNext_ne_ok _ _ _

/-- What cannot stand after a member: the object is neither closed nor goes on
with a name behind a comma. -/
def Astray (rest : List Char) : Prop :=
  ∀ c tail, rest.dropWhile isGap = c :: tail →
    c ≠ '}' ∧ (c = ',' → ∀ others, tail.dropWhile isGap ≠ '"' :: others)

theorem readMembers_astray
    {readItem : Reading → Except ReadError (Json × Reading)} {r : Reading} (astray : Astray r.rest)
    (fuel : Nat) (read : List (String × Json)) (result : List (String × Json) × Reading) :
    readMembers readItem fuel false read r ≠ .ok result := by
  rw [Astray, ← skip_rest] at astray
  cases fuel with
  | zero =>
      exact nofun
  | succ fuel =>
      rw [readMembers]
      cases here : r.skip.rest with
      | nil =>
          exact failNext_ne_ok _ _ _
      | cons c tail =>
          obtain ⟨notClosing, noName⟩ := astray c tail here
          by_cases isComma : c = ','
          · subst isComma
            -- behind the comma the name of the next member is looked for
            have noQuote : ∀ others,
                (r.skip.past ',' tail).skip.rest ≠ '"' :: others := by
              intro others
              rw [skip_rest, past_rest]
              exact noName rfl others
            cases reads : readKey (r.skip.past ',' tail).skip with
            | ok key =>
                exact absurd reads (readKey_ne_ok noQuote key)
            | error fault =>
                simp [reads, bind, Except.bind]
          · simp only [isComma]
            simpa using failNext_ne_ok _ _ _

/-- An object that goes astray behind some members is not read. -/
theorem readEntries_astray
    {members : List (String × Json)} (notEmpty : members ≠ [])
    (legible : ∀ member ∈ members, Legible 127 1 member.2)
    {rest : List Char} (astray : Astray rest) (entries : List (String × Json)) :
    readEntries (String.ofList ('{' :: (prettyMembers 1 true members ++ rest))) ≠ .ok entries := by
  intro reads
  obtain ⟨inside, end_, here, readsMembers, -⟩ := readEntries_eq_ok_iff.mp reads
  have opened : prettyMembers 1 true members ++ rest = inside := by
    rw [skip_rest, start, String.toList_ofList] at here
    exact (List.cons.inj here).2
  obtain ⟨fuel, enough⟩ : ∃ fuel, inside.length + 1 = fuel + members.length := by
    have bound := length_le_prettyMembers 1 true members
    refine ⟨inside.length + 1 - members.length, ?_⟩
    rw [← opened, List.length_append]
    omega
  obtain ⟨after, readsPast, afterRest⟩ := readMembers_past legible fuel true []
    ((past_rest (start _).skip '{' inside).trans opened.symm)
  rw [enough, readsPast, List.isEmpty_eq_false_iff.mpr notEmpty] at readsMembers
  exact readMembers_astray (afterRest ▸ astray) fuel _ _ readsMembers

end ShapeAudit.Json
