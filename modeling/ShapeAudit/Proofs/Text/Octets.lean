import ShapeAudit.Text

/-!
# Text in octets

The octets of a text can be read back: no character is lost and none is taken
for another one.
-/

namespace ShapeAudit.Text

theorem octets_append (first second : String) :
    octets (first ++ second) = octets first ++ octets second := by
  simp [octets]

theorem toNat_octet {n : Nat} (small : n < 256) :
    n.toUInt8.toNat = n := by
  simpa [Nat.toUInt8] using small

/-! ## Steps of decoding -/

/-- An octet below the first lead octet is a character. -/
theorem decodeFrom_single
    {n : Nat} (small : n < 0x80) (rest : List UInt8) :
    decodeFrom none (n.toUInt8 :: rest) = some (Char.ofNat n) :: decodeFrom none rest := by
  have value : n.toUInt8.toNat = n := toNat_octet (by omega)
  simp [decodeFrom, value, small]

/-- A lead octet begins a character. -/
theorem decodeFrom_lead
    {n low high owed : Nat} (small : n < 256)
    (bounds : leadBounds? n = some (low, high, owed)) (rest : List UInt8) :
    decodeFrom none (n.toUInt8 :: rest) =
      decodeFrom
        (some ⟨low, high, owed,
          if owed = 1 then n % 32 else if owed = 2 then n % 16 else n % 8⟩) rest := by
  have value : n.toUInt8.toNat = n := toNat_octet small
  have notSingle : ¬ n < 0x80 := by
    intro isSingle
    unfold leadBounds? at bounds
    grind
  simp [decodeFrom, value, notSingle, bounds]

/-- An octet within the bounds of a character that has begun goes on with it. -/
theorem decodeFrom_more
    {low high owed value n : Nat} (small : n < 256)
    (aboveLow : low ≤ n) (belowHigh : n ≤ high) (rest : List UInt8) :
    decodeFrom (some ⟨low, high, owed + 2, value⟩) (n.toUInt8 :: rest) =
      decodeFrom (some ⟨0x80, 0xBF, owed + 1, value * 64 + n % 64⟩) rest := by
  have octetValue : n.toUInt8.toNat = n := toNat_octet small
  simp [decodeFrom, octetValue, aboveLow, belowHigh]

/-- The last octet that is owed ends the character. -/
theorem decodeFrom_last
    {low high value n : Nat} (small : n < 256)
    (aboveLow : low ≤ n) (belowHigh : n ≤ high) (rest : List UInt8) :
    decodeFrom (some ⟨low, high, 1, value⟩) (n.toUInt8 :: rest) =
      some (Char.ofNat (value * 64 + n % 64)) :: decodeFrom none rest := by
  have octetValue : n.toUInt8.toNat = n := toNat_octet small
  simp [decodeFrom, octetValue, aboveLow, belowHigh]

/-! ## Characters -/

/-- Code points leave out the surrogates. -/
theorem toNat_range (c : Char) :
    c.toNat < 0xD800 ∨ 0xDFFF < c.toNat ∧ c.toNat < 0x110000 :=
  c.valid

theorem leadBounds?_two {n : Nat} (least : 0x80 ≤ n) (most : n < 0x800) :
    leadBounds? (0xC0 + n / 64) = some (0x80, 0xBF, 1) := by
  unfold leadBounds?
  rw [if_pos (by omega)]

/-- The lead octet of three allows the second one: it keeps out code points that
need fewer octets, and surrogates. -/
theorem leadBounds?_three
    {n : Nat} (least : 0x800 ≤ n) (most : n < 0x10000)
    (noSurrogate : n < 0xD800 ∨ 0xDFFF < n) :
    ∃ low high, leadBounds? (0xE0 + n / 4096) = some (low, high, 2) ∧
      low ≤ 0x80 + n / 64 % 64 ∧ 0x80 + n / 64 % 64 ≤ high := by
  unfold leadBounds?
  rw [if_neg (by omega)]
  split
  · exact ⟨0xA0, 0xBF, rfl, by omega, by omega⟩
  · split
    · exact ⟨0x80, 0x9F, rfl, by omega, by omega⟩
    · rw [if_pos (by omega)]
      exact ⟨0x80, 0xBF, rfl, by omega, by omega⟩

/-- The lead octet of four allows the second one. -/
theorem leadBounds?_four
    {n : Nat} (least : 0x10000 ≤ n) (most : n < 0x110000) :
    ∃ low high, leadBounds? (0xF0 + n / 262144) = some (low, high, 3) ∧
      low ≤ 0x80 + n / 4096 % 64 ∧ 0x80 + n / 4096 % 64 ≤ high := by
  unfold leadBounds?
  rw [if_neg (by omega), if_neg (by omega), if_neg (by omega), if_neg (by omega)]
  split
  · exact ⟨0x90, 0xBF, rfl, by omega, by omega⟩
  · split
    · exact ⟨0x80, 0x8F, rfl, by omega, by omega⟩
    · rw [if_pos (by omega)]
      exact ⟨0x80, 0xBF, rfl, by omega, by omega⟩

theorem decodeFrom_two
    {n : Nat} (least : 0x80 ≤ n) (most : n < 0x800) (rest : List UInt8) :
    decodeFrom none ((0xC0 + n / 64).toUInt8 :: (0x80 + n % 64).toUInt8 :: rest) =
      some (Char.ofNat n) :: decodeFrom none rest := by
  have value : (0xC0 + n / 64) % 32 * 64 + (0x80 + n % 64) % 64 = n := by
    omega
  calc
    _ = decodeFrom (some ⟨0x80, 0xBF, 1, (0xC0 + n / 64) % 32⟩)
          ((0x80 + n % 64).toUInt8 :: rest) :=
        decodeFrom_lead (by omega) (leadBounds?_two least most) _
    _ = some (Char.ofNat ((0xC0 + n / 64) % 32 * 64 + (0x80 + n % 64) % 64)) ::
          decodeFrom none rest :=
        decodeFrom_last (by omega) (by omega) (by omega) rest
    _ = _ := by rw [value]

theorem decodeFrom_three
    {n : Nat} (least : 0x800 ≤ n) (most : n < 0x10000)
    (noSurrogate : n < 0xD800 ∨ 0xDFFF < n) (rest : List UInt8) :
    decodeFrom none ((0xE0 + n / 4096).toUInt8 :: (0x80 + n / 64 % 64).toUInt8 ::
        (0x80 + n % 64).toUInt8 :: rest) =
      some (Char.ofNat n) :: decodeFrom none rest := by
  obtain ⟨low, high, bounds, aboveLow, belowHigh⟩ := leadBounds?_three least most noSurrogate
  have first : (0xE0 + n / 4096) % 16 * 64 + (0x80 + n / 64 % 64) % 64 = n / 64 := by
    omega
  have second : n / 64 * 64 + (0x80 + n % 64) % 64 = n := by
    omega
  calc
    _ = decodeFrom (some ⟨low, high, 2, (0xE0 + n / 4096) % 16⟩)
          ((0x80 + n / 64 % 64).toUInt8 :: (0x80 + n % 64).toUInt8 :: rest) :=
        decodeFrom_lead (by omega) bounds _
    _ = decodeFrom (some ⟨0x80, 0xBF, 1, n / 64⟩) ((0x80 + n % 64).toUInt8 :: rest) := by
        rw [decodeFrom_more (by omega) aboveLow belowHigh, first]
    _ = some (Char.ofNat n) :: decodeFrom none rest := by
        rw [decodeFrom_last (by omega) (by omega) (by omega), second]

theorem decodeFrom_four
    {n : Nat} (least : 0x10000 ≤ n) (most : n < 0x110000) (rest : List UInt8) :
    decodeFrom none ((0xF0 + n / 262144).toUInt8 :: (0x80 + n / 4096 % 64).toUInt8 ::
        (0x80 + n / 64 % 64).toUInt8 :: (0x80 + n % 64).toUInt8 :: rest) =
      some (Char.ofNat n) :: decodeFrom none rest := by
  obtain ⟨low, high, bounds, aboveLow, belowHigh⟩ := leadBounds?_four least most
  have first : (0xF0 + n / 262144) % 8 * 64 + (0x80 + n / 4096 % 64) % 64 = n / 4096 := by
    omega
  have second : n / 4096 * 64 + (0x80 + n / 64 % 64) % 64 = n / 64 := by
    omega
  have third : n / 64 * 64 + (0x80 + n % 64) % 64 = n := by
    omega
  calc
    _ = decodeFrom (some ⟨low, high, 3, (0xF0 + n / 262144) % 8⟩)
          ((0x80 + n / 4096 % 64).toUInt8 :: (0x80 + n / 64 % 64).toUInt8 ::
            (0x80 + n % 64).toUInt8 :: rest) :=
        decodeFrom_lead (by omega) bounds _
    _ = decodeFrom (some ⟨0x80, 0xBF, 2, n / 4096⟩)
          ((0x80 + n / 64 % 64).toUInt8 :: (0x80 + n % 64).toUInt8 :: rest) := by
        rw [decodeFrom_more (by omega) aboveLow belowHigh, first]
    _ = decodeFrom (some ⟨0x80, 0xBF, 1, n / 64⟩) ((0x80 + n % 64).toUInt8 :: rest) := by
        rw [decodeFrom_more (by omega) (by omega) (by omega), second]
    _ = some (Char.ofNat n) :: decodeFrom none rest := by
        rw [decodeFrom_last (by omega) (by omega) (by omega), third]

/-- The octets of a character are read as this character. -/
theorem decodeFrom_octetsOf (c : Char) (rest : List UInt8) :
    decodeFrom none (octetsOf c ++ rest) = some c :: decodeFrom none rest := by
  have range := toNat_range c
  have back : Char.ofNat c.toNat = c := Char.ofNat_toNat c
  simp only [octetsOf]
  split
  · rename_i isSingle
    simpa [back] using decodeFrom_single isSingle rest
  · split
    · rename_i notOne isTwo
      simpa [back] using decodeFrom_two (Nat.le_of_not_lt notOne) isTwo rest
    · split
      · rename_i notOne notTwo isThree
        have noSurrogate : c.toNat < 0xD800 ∨ 0xDFFF < c.toNat := by
          omega
        simpa [back] using
          decodeFrom_three (Nat.le_of_not_lt notTwo) isThree noSurrogate rest
      · rename_i notOne notTwo notThree
        have most : c.toNat < 0x110000 := by
          omega
        simpa [back] using decodeFrom_four (Nat.le_of_not_lt notThree) most rest

/-! ## Texts -/

theorem decodeFrom_octets (chars : List Char) :
    decodeFrom none (chars.flatMap octetsOf) = chars.map some := by
  induction chars with
  | nil =>
      rfl
  | cons c rest inductionHypothesis =>
      rw [List.flatMap_cons, decodeFrom_octetsOf, inductionHypothesis, List.map_cons]

theorem mapM_some (chars : List Char) :
    (chars.map some).mapM id = some chars := by
  induction chars with
  | nil =>
      rfl
  | cons c rest inductionHypothesis =>
      simp [List.mapM_cons, inductionHypothesis]

/-- The octets of a text are read as this text. -/
theorem decode?_octets (text : String) :
    decode? (octets text) = some text := by
  rw [decode?, octets, decodeFrom_octets, mapM_some, Option.map_some, String.ofList_toList]

/-- A text is known from its octets. -/
theorem octets_injective : Function.Injective octets := by
  intro first second same
  have readsBack := decode?_octets first
  rw [same, decode?_octets second] at readsBack
  exact (Option.some.inj readsBack).symm

theorem width_pos (c : Char) : 0 < width c := by
  simp only [width]
  split
  · decide
  · split
    · decide
    · split <;> decide

theorem length_le_foldl_width (chars : List Char) (total : Nat) :
    total + chars.length ≤ chars.foldl (fun total c => total + width c) total := by
  induction chars generalizing total with
  | nil =>
      simp
  | cons c rest inductionHypothesis =>
      have somewhere := width_pos c
      have others := inductionHypothesis (total + width c)
      rw [List.length_cons, List.foldl_cons]
      omega

/-- Every character takes an octet. -/
theorem eq_empty_of_octetCount {text : String} (noOctets : octetCount text = 0) : text = "" := by
  have most := length_le_foldl_width text.toList 0
  rw [octetCount] at noOctets
  apply String.toList_inj.mp
  exact List.eq_nil_of_length_eq_zero (by omega)

/-- Only the character zero has a zero octet. -/
theorem zero_not_mem_octets
    {text : String} (noZero : ∀ c ∈ text.toList, c.toNat ≠ 0) : 0 ∉ octets text := by
  rw [octets, List.mem_flatMap]
  rintro ⟨c, isMember, isZero⟩
  have nonzero := noZero c isMember
  have range := toNat_range c
  -- every octet is the octet of a number between 1 and 255
  have octetNonzero : ∀ {n : Nat}, n < 256 → n ≠ 0 → (0 : UInt8) ≠ n.toUInt8 := by
    intro n small isNonzero equal
    have value := toNat_octet small
    rw [← equal] at value
    exact isNonzero value.symm
  simp only [octetsOf] at isZero
  repeat' split at isZero
  all_goals
    simp only [List.mem_cons, List.not_mem_nil, or_false] at isZero
  · exact octetNonzero (by omega) nonzero isZero
  · rcases isZero with isZero | isZero <;> exact octetNonzero (by omega) (by omega) isZero
  · rcases isZero with isZero | isZero | isZero <;>
      exact octetNonzero (by omega) (by omega) isZero
  · rcases isZero with isZero | isZero | isZero | isZero <;>
      exact octetNonzero (by omega) (by omega) isZero

end ShapeAudit.Text
