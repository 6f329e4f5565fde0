import ShapeAudit.Proofs.Json.Compact
import ShapeAudit.Proofs.Text.Octets
import ShapeAudit.Proofs.Transform.Memo

/-!
# Keys of calls

The message of a call is its source, a zero octet and the compact text of its
configuration.  The source may hold zero octets of its own, but the compact text
holds none, so the last zero octet of a message divides it, and the two parts
are the source and the configuration.  Two different calls have the same key
only if the digest takes their different messages to the same value.
-/

namespace ShapeAudit

/-! ## Digests and their texts -/

namespace Sha256

theorem hexDigit_injective {m n : Nat} (smallFirst : m < 16) (smallSecond : n < 16)
    (same : Text.hexDigit m = Text.hexDigit n) : m = n := by
  have value := Json.hexValue?_hexDigit m smallFirst
  rw [same, Json.hexValue?_hexDigit n smallSecond] at value
  exact (Option.some.inj value).symm

/-- One digit more. -/
theorem shiftRight_eq_of_digit
    {m n place : Nat} (above : m >>> (place + 4) = n >>> (place + 4))
    (digit : m >>> place % 16 = n >>> place % 16) : m >>> place = n >>> place := by
  rw [Nat.shiftRight_add, Nat.shiftRight_add] at above
  generalize m >>> place = high at above digit ⊢
  generalize n >>> place = otherHigh at above digit ⊢
  rw [Nat.shiftRight_eq_div_pow, Nat.shiftRight_eq_div_pow] at above
  omega

theorem hexWord_injective : Function.Injective hexWord := by
  intro first second same
  have sameDigit : ∀ shift ∈ [28, 24, 20, 16, 12, 8, 4, 0],
      first.toNat >>> shift % 16 = second.toNat >>> shift % 16 := by
    intro shift isShift
    have sameChar := List.map_inj_left.mp same shift isShift
    exact hexDigit_injective (Nat.mod_lt _ (by decide)) (Nat.mod_lt _ (by decide)) sameChar
  have nothingAbove : first.toNat >>> 32 = second.toNat >>> 32 := by
    rw [Nat.shiftRight_eq_div_pow, Nat.shiftRight_eq_div_pow,
      Nat.div_eq_of_lt first.toNat_lt, Nat.div_eq_of_lt second.toNat_lt]
  have from28 := shiftRight_eq_of_digit nothingAbove (sameDigit 28 (by decide))
  have from24 := shiftRight_eq_of_digit from28 (sameDigit 24 (by decide))
  have from20 := shiftRight_eq_of_digit from24 (sameDigit 20 (by decide))
  have from16 := shiftRight_eq_of_digit from20 (sameDigit 16 (by decide))
  have from12 := shiftRight_eq_of_digit from16 (sameDigit 12 (by decide))
  have from8 := shiftRight_eq_of_digit from12 (sameDigit 8 (by decide))
  have from4 := shiftRight_eq_of_digit from8 (sameDigit 4 (by decide))
  have from0 := shiftRight_eq_of_digit from4 (sameDigit 0 (by decide))
  exact UInt32.toNat_inj.mp from0

theorem flatMap_hexWord_injective : Function.Injective (List.flatMap hexWord) := by
  intro words
  induction words with
  | nil =>
      intro others same
      cases others with
      | nil => rfl
      | cons other others => cases same
  | cons word words inductionHypothesis =>
      intro others same
      cases others with
      | nil => cases same
      | cons other others =>
          rw [List.flatMap_cons, List.flatMap_cons] at same
          obtain ⟨sameWord, sameWords⟩ := List.append_inj same rfl
          rw [hexWord_injective sameWord, inductionHypothesis sameWords]

/-- A digest is known from its text. -/
theorem digest_eq_of_hex_eq {first second : List UInt8} (same : hex first = hex second) :
    digest first = digest second := by
  have sameWords := flatMap_hexWord_injective (String.ofList_injective same)
  generalize digest first = chain at sameWords
  generalize digest second = other at sameWords
  cases chain
  cases other
  simpa [Chain.words] using sameWords

end Sha256

namespace Transform

/-! ## Messages -/

/-- A list is divided at the last place of a separator. -/
theorem append_cons_inj_of_last
    {α : Type} {separator : α} {before after otherBefore otherAfter : List α}
    (last : separator ∉ after) (otherLast : separator ∉ otherAfter)
    (same : before ++ separator :: after = otherBefore ++ separator :: otherAfter) :
    before = otherBefore ∧ after = otherAfter := by
  rcases List.append_eq_append_iff.mp same with ⟨between, longer, tail⟩ | ⟨between, longer, tail⟩
  · cases between with
    | nil =>
        rw [List.append_nil] at longer
        exact ⟨longer.symm, (List.cons.inj tail).2⟩
    | cons c between =>
        have laterSeparator : after = between ++ separator :: otherAfter := (List.cons.inj tail).2
        exact absurd (by simp [laterSeparator]) last
  · cases between with
    | nil =>
        rw [List.append_nil] at longer
        exact ⟨longer, (List.cons.inj tail).2.symm⟩
    | cons c between =>
        have laterSeparator : otherAfter = between ++ separator :: after := (List.cons.inj tail).2
        exact absurd (by simp [laterSeparator]) otherLast

/-- The compact text of a configuration has no zero octet. -/
theorem zero_not_mem_compact (config : Json) : 0 ∉ Text.octets config.compact := by
  apply Text.zero_not_mem_octets
  intro c isMember
  rw [Json.compact, String.toList_ofList] at isMember
  have visible := Json.visible_of_mem_compactChars config isMember
  omega

theorem cacheMessage_inj
    {code other : String} {config otherConfig : Json}
    (same : cacheMessage code config = cacheMessage other otherConfig) :
    code = other ∧ config = otherConfig := by
  obtain ⟨sameCode, sameConfig⟩ :=
    append_cons_inj_of_last (zero_not_mem_compact config) (zero_not_mem_compact otherConfig) same
  exact ⟨Text.octets_injective sameCode,
    Json.compact_injective (Text.octets_injective sameConfig)⟩

/-! ## Keys -/

/-- The messages of some sources and configurations. -/
def messagesOf (used : Set (String × Json)) : Set (List UInt8) :=
  {message | ∃ pair ∈ used, message = cacheMessage pair.1 pair.2}

/-- Two different calls with one key are a collision of the digest. -/
theorem collision_of_cacheKey_eq
    {code other : String} {config otherConfig : Json}
    (different : (code, config) ≠ (other, otherConfig))
    (sameKey : cacheKey code config = cacheKey other otherConfig) :
    cacheMessage code config ≠ cacheMessage other otherConfig ∧
      Sha256.digest (cacheMessage code config) =
        Sha256.digest (cacheMessage other otherConfig) := by
  refine ⟨?_, Sha256.digest_eq_of_hex_eq sameKey⟩
  intro sameMessage
  obtain ⟨sameCode, sameConfig⟩ := cacheMessage_inj sameMessage
  exact different (by rw [sameCode, sameConfig])

/-- Where the digest has no collision, keys are apart. -/
theorem keysApart_of_injOn
    {used : Set (String × Json)} (noCollision : Set.InjOn Sha256.digest (messagesOf used)) :
    KeysApart used := by
  intro first firstUsed second secondUsed sameKey
  by_contra different
  obtain ⟨otherMessage, sameDigest⟩ := collision_of_cacheKey_eq different sameKey
  exact otherMessage
    (noCollision ⟨first, firstUsed, rfl⟩ ⟨second, secondUsed, rfl⟩ sameDigest)

/-- The message of a call determines the source and the configuration, whatever
characters the source has and however deep the configuration is.  So different
calls share a key only through a collision of the digest, and a table in front
of a transformer keeps calls apart that the digest keeps apart. -/
theorem message_determines_source_and_configuration :
    (∀ (code other : String) (config otherConfig : Json),
      cacheMessage code config = cacheMessage other otherConfig →
        code = other ∧ config = otherConfig) ∧
    (∀ (code other : String) (config otherConfig : Json),
      (code, config) ≠ (other, otherConfig) →
        cacheKey code config = cacheKey other otherConfig →
          cacheMessage code config ≠ cacheMessage other otherConfig ∧
            Sha256.digest (cacheMessage code config) =
              Sha256.digest (cacheMessage other otherConfig)) ∧
    (∀ used : Set (String × Json),
      Set.InjOn Sha256.digest (messagesOf used) → KeysApart used) := by
  refine ⟨?_, ?_, ?_⟩
  · intro code other config otherConfig same
    exact cacheMessage_inj same
  · intro code other config otherConfig different sameKey
    exact collision_of_cacheKey_eq different sameKey
  · intro used noCollision
    exact keysApart_of_injOn noCollision

/-- One object with its members given in two orders, and a source with a zero
character. -/
theorem members_in_two_orders_have_one_message :
    cacheMessage "a\x00[]" (Json.object [("x\x00", .bool true),
        ("x", .number (.double (.ofDigits true 50 20)))]).arrange =
      cacheMessage "a\x00[]" (Json.object [("x", .number (.double (.ofDigits true 5 21))),
        ("x\x00", .bool true)]).arrange ∧
    (Json.object [("x\x00", .bool true),
        ("x", .number (.double (.ofDigits true 50 20)))]).arrange =
      (Json.object [("x", .number (.double (.ofDigits true 5 21))),
        ("x\x00", .bool true)]).arrange := by
  have same :
      cacheMessage "a\x00[]" (Json.object [("x\x00", .bool true),
          ("x", .number (.double (.ofDigits true 50 20)))]).arrange =
        cacheMessage "a\x00[]" (Json.object [("x", .number (.double (.ofDigits true 5 21))),
          ("x\x00", .bool true)]).arrange := by
    decide +kernel
  exact ⟨same, (message_determines_source_and_configuration.1 _ _ _ _ same).2⟩

end Transform

end ShapeAudit
