import ShapeAudit.Text

/-!
The order of texts by their code points is a strict linear order.
-/

namespace ShapeAudit.Text

theorem lessThan_irrefl (text : String) :
    lessThan text text = false := by
  simp only [lessThan, decide_eq_false_iff_not]
  exact List.lt_irrefl _

theorem lessThan_trans
    {first second third : String}
    (firstBelow : lessThan first second = true)
    (secondBelow : lessThan second third = true) :
    lessThan first third = true := by
  simp only [lessThan, decide_eq_true_eq] at firstBelow secondBelow ⊢
  exact List.lt_trans firstBelow secondBelow

theorem ne_of_lessThan
    {left right : String}
    (below : lessThan left right = true) :
    left ≠ right := by
  rintro rfl
  simp [lessThan_irrefl] at below

theorem lessThan_asymm
    {left right : String}
    (below : lessThan left right = true) :
    lessThan right left = false := by
  cases above : lessThan right left with
  | false =>
      rfl
  | true =>
      have looped := lessThan_trans below above
      simp [lessThan_irrefl] at looped

/-- A text is known from its code points. -/
private theorem codePoints_injective
    {left right : String}
    (equal : left.toList.map Char.toNat = right.toList.map Char.toNat) :
    left = right := by
  apply String.toList_inj.mp
  exact List.map_inj_right (fun _ _ same => Char.toNat_inj.mp same) |>.mp equal

theorem lessThan_of_not_lessThan
    {left right : String}
    (different : left ≠ right)
    (notBelow : lessThan left right = false) :
    lessThan right left = true := by
  simp only [lessThan, decide_eq_true_eq, decide_eq_false_iff_not] at notBelow ⊢
  rcases List.le_iff_lt_or_eq.mp (List.not_lt.mp notBelow) with below | equal
  · exact below
  · exact absurd (codePoints_injective equal).symm different

end ShapeAudit.Text
