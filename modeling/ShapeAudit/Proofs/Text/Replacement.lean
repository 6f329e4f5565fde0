import Mathlib.Data.List.Infix
import ShapeAudit.Text

/-!
# Occurrences and their replacement

Replacing goes through a text once.  A place where the piece does not begin is
left alone, so a stretch in which its first character does not occur is passed
over, and a piece that begins somewhere is replaced as a whole.
-/

namespace ShapeAudit.Text

/-! ## Occurrences -/

theorem afterPrefix?_eq_some_iff {piece chars rest : List Char} :
    afterPrefix? piece chars = some rest ↔ chars = piece ++ rest := by
  fun_induction afterPrefix? piece chars with
  | case1 chars =>
      simp
  | case2 =>
      simp
  | case3 c piece chars inductionHypothesis =>
      simp [inductionHypothesis]
  | case4 c piece d chars different =>
      simp [Ne.symm different]

theorem afterPrefix?_isSome_iff (piece chars : List Char) :
    (afterPrefix? piece chars).isSome = true ↔ piece <+: chars := by
  rw [Option.isSome_iff_exists]
  constructor
  · rintro ⟨rest, found⟩
    exact ⟨rest, (afterPrefix?_eq_some_iff.mp found).symm⟩
  · rintro ⟨rest, begun⟩
    exact ⟨rest, afterPrefix?_eq_some_iff.mpr begun.symm⟩

theorem occursIn_iff (piece chars : List Char) :
    occursIn piece chars = true ↔ piece <:+: chars := by
  induction chars with
  | nil =>
      simp [occursIn]
  | cons c rest inductionHypothesis =>
      rw [occursIn, Bool.or_eq_true, afterPrefix?_isSome_iff, inductionHypothesis,
        List.infix_cons_iff]

/-! ## Replacement -/

section Replacement

variable {piece replacement : List Char}

theorem replaceFrom_drop (pending : Nat) (chars : List Char) :
    replaceFrom piece replacement pending chars =
      replaceFrom piece replacement 0 (chars.drop pending) := by
  induction pending generalizing chars with
  | zero =>
      rfl
  | succ pending inductionHypothesis =>
      cases chars with
      | nil =>
          rfl
      | cons c rest =>
          exact inductionHypothesis rest

theorem replaceFrom_cons_of_not_prefix
    {c : Char} {rest : List Char} (elsewhere : ¬ piece <+: c :: rest) :
    replaceFrom piece replacement 0 (c :: rest) =
      c :: replaceFrom piece replacement 0 rest := by
  rw [replaceFrom, if_neg (mt (afterPrefix?_isSome_iff _ _).mp elsewhere)]

theorem replaceFrom_piece_append (notEmpty : piece ≠ []) (rest : List Char) :
    replaceFrom piece replacement 0 (piece ++ rest) =
      replacement ++ replaceFrom piece replacement 0 rest := by
  obtain ⟨c, tail, rfl⟩ := List.exists_cons_of_ne_nil notEmpty
  have begun : (afterPrefix? (c :: tail) (c :: (tail ++ rest))).isSome = true :=
    (afterPrefix?_isSome_iff _ _).mpr ⟨rest, rfl⟩
  rw [List.cons_append, replaceFrom, if_pos begun, replaceFrom_drop, List.length_cons,
    Nat.add_sub_cancel, List.drop_left]

/-- Nothing is replaced where the first character of the piece does not occur. -/
theorem replaceFrom_append_of_not_mem
    {first : Char} {tail chars : List Char} (absent : first ∉ chars) (rest : List Char) :
    replaceFrom (first :: tail) replacement 0 (chars ++ rest) =
      chars ++ replaceFrom (first :: tail) replacement 0 rest := by
  induction chars with
  | nil =>
      rfl
  | cons c chars inductionHypothesis =>
      rw [List.mem_cons, not_or] at absent
      have elsewhere : ¬ first :: tail <+: c :: (chars ++ rest) := by
        rw [List.cons_prefix_cons]
        exact fun begun => absent.1 begun.1
      rw [List.cons_append, replaceFrom_cons_of_not_prefix elsewhere,
        inductionHypothesis absent.2, List.cons_append]

end Replacement

end ShapeAudit.Text
