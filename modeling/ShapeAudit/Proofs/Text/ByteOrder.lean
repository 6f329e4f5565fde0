import ShapeAudit.Proofs.Text.Octets
import ShapeAudit.Text.Order

/-!
# Order by octets

Texts that are in order by their code points are in the same order by their
octets in UTF-8: the octets of two characters are told apart before one of them
is at an end, and the first octet that differs decides as the code points do.
-/

namespace ShapeAudit.Text

/-- A smaller octet decides. -/
theorem octets_lt_of_lt {m n : Nat} (below : m < n) (small : n < 256) (left right : List UInt8) :
    m.toUInt8 :: left < n.toUInt8 :: right := by
  apply List.Lex.rel
  rw [UInt8.lt_iff_toNat_lt, toNat_octet small, toNat_octet (Nat.lt_trans below small)]
  exact below

/-- Two octets decide: the first, or the second if the first ones are the same. -/
theorem octets_lt_of_le {m n : Nat} (atMost : m ≤ n) (small : n < 256) {left right : List UInt8}
    (behind : m = n → left < right) :
    m.toUInt8 :: left < n.toUInt8 :: right := by
  rcases Nat.lt_or_eq_of_le atMost with below | rfl
  · exact octets_lt_of_lt below small left right
  · exact List.Lex.cons (behind rfl)

/-- The octets of a smaller character are less, whatever follows: a character of
fewer octets has the smaller lead octet, and octets of the same number are digits
of the code points. -/
theorem octetsOf_lt {c d : Char} (below : c.toNat < d.toNat) (left right : List UInt8) :
    octetsOf c ++ left < octetsOf d ++ right := by
  have dRange := toNat_range d
  unfold octetsOf
  dsimp only
  generalize c.toNat = m at below
  generalize d.toNat = n at below dRange
  rcases Nat.lt_or_ge n 0x80 with one | more
  · rw [if_pos (Nat.lt_trans below one), if_pos one]
    exact octets_lt_of_lt below (by omega) _ _
  rw [if_neg (Nat.not_lt.mpr more)]
  rcases Nat.lt_or_ge n 0x800 with two | more
  · rw [if_pos two]
    split
    · exact octets_lt_of_lt (by omega) (by omega) _ _
    · rw [if_pos (Nat.lt_trans below two)]
      apply octets_lt_of_le (by omega) (by omega)
      intro sameLead
      exact octets_lt_of_lt (by omega) (by omega) _ _
  rw [if_neg (Nat.not_lt.mpr more)]
  rcases Nat.lt_or_ge n 0x10000 with three | more
  · rw [if_pos three]
    split
    · exact octets_lt_of_lt (by omega) (by omega) _ _
    · split
      · exact octets_lt_of_lt (by omega) (by omega) _ _
      · rw [if_pos (Nat.lt_trans below three)]
        apply octets_lt_of_le (by omega) (by omega)
        intro sameLead
        apply octets_lt_of_le (by omega) (by omega)
        intro sameSecond
        exact octets_lt_of_lt (by omega) (by omega) _ _
  rw [if_neg (Nat.not_lt.mpr more)]
  split
  · exact octets_lt_of_lt (by omega) (by omega) _ _
  · split
    · exact octets_lt_of_lt (by omega) (by omega) _ _
    · split
      · exact octets_lt_of_lt (by omega) (by omega) _ _
      · apply octets_lt_of_le (by omega) (by omega)
        intro sameLead
        apply octets_lt_of_le (by omega) (by omega)
        intro sameSecond
        apply octets_lt_of_le (by omega) (by omega)
        intro sameThird
        exact octets_lt_of_lt (by omega) (by omega) _ _

theorem octetsOf_ne_nil (c : Char) :
    octetsOf c ≠ [] := by
  unfold octetsOf
  dsimp only
  split
  · simp
  · split
    · simp
    · split <;> simp

/-- The order of texts by their code points is the order of their octets. -/
theorem octets_lt_of_lessThan {left right : String} (below : lessThan left right = true) :
    octets left < octets right := by
  simp only [lessThan, decide_eq_true_eq] at below
  rw [octets, octets]
  generalize left.toList = leftChars at below
  generalize right.toList = rightChars at below
  induction leftChars generalizing rightChars with
  | nil =>
      cases rightChars with
      | nil =>
          simp at below
      | cons d rest =>
          obtain ⟨lead, tail, octetsOfD⟩ := List.exists_cons_of_ne_nil (octetsOf_ne_nil d)
          rw [List.flatMap_nil, List.flatMap_cons, octetsOfD]
          exact List.nil_lt_cons _ _
  | cons c rest inductionHypothesis =>
      cases rightChars with
      | nil =>
          simp at below
      | cons d others =>
          rw [List.map_cons, List.map_cons, List.cons_lt_cons_iff] at below
          rw [List.flatMap_cons, List.flatMap_cons]
          rcases below with firstBelow | ⟨sameFirst, restBelow⟩
          · exact octetsOf_lt firstBelow _ _
          · rw [Char.toNat_inj.mp sameFirst]
            exact List.append_left_lt (inductionHypothesis others restBelow)

/-- The octets of one text come first exactly if its code points do. -/
theorem octets_lt_iff (left right : String) :
    octets left < octets right ↔ lessThan left right = true := by
  constructor
  · intro below
    cases ordered : lessThan left right with
    | true =>
        rfl
    | false =>
        have different : left ≠ right := by
          rintro rfl
          exact List.lt_irrefl _ below
        have above := octets_lt_of_lessThan (lessThan_of_not_lessThan different ordered)
        exact absurd above (List.lt_asymm below)
  · exact octets_lt_of_lessThan

end ShapeAudit.Text
