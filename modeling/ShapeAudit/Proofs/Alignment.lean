import ShapeAudit.Proofs.Comparison
import ShapeAudit.Proofs.Text.Replacement

/-!
# Exchanging the two sources

Aligning rewrites one of two sources, parsing stops at the first bad one and a
divergence is labelled by the first tree.  None of this depends on which source
is called the first: after alignment both sources begin with the directive or
neither does, aligned sources stay as they are, and the verdicts of the two
orders say the same.
-/

namespace ShapeAudit

/-! ## Aligned sources -/

theorem startsStrict_strictLine (text : String) :
    startsStrict (strictLine ++ text) = true := by
  have trimmed :
      (Text.trim (strictLine ++ text)).toList =
        "\"use strict\"".toList ++ ';' :: Text.dropBlankEnd ('\n' :: text.toList) := by
    rw [Text.trim, String.toList_ofList, trimChars_strictLine]
  have seen : Text.startsWith (Text.trim (strictLine ++ text)) "\"use strict\"" = true := by
    rw [Text.startsWith, trimmed]
    exact (Text.afterPrefix?_isSome_iff _ _).mpr (List.prefix_append _ _)
  rw [startsStrict, seen, Bool.true_or]

/-- Exchanging the sources exchanges what alignment makes of them. -/
theorem alignStrict_swap (source transformed : String) :
    alignStrict transformed source = (alignStrict source transformed).swap := by
  cases markedFirst : startsStrict source <;>
    cases markedSecond : startsStrict transformed <;>
      simp [alignStrict, markedFirst, markedSecond]

theorem startsStrict_alignStrict (source transformed : String) :
    startsStrict (alignStrict source transformed).1 =
      startsStrict (alignStrict source transformed).2 := by
  by_cases agree : startsStrict source = startsStrict transformed
  · rw [alignStrict_of_agree agree]
    exact agree
  · have lineMarks := startsStrict_strictLine (unmarked source transformed)
    rw [alignStrict_of_disagree agree]
    cases marked : startsStrict source with
    | false =>
        have otherMarked : startsStrict transformed = true := by
          simpa [marked] using agree
        simp [lineMarks, otherMarked]
    | true =>
        simp [lineMarks, marked]

theorem alignStrict_idempotent (source transformed : String) :
    alignStrict (alignStrict source transformed).1 (alignStrict source transformed).2 =
      alignStrict source transformed := by
  rw [alignStrict_of_agree (startsStrict_alignStrict source transformed)]

/-! ## Verdicts in both orders -/

namespace Verdict

theorem different_ofNodes_swap (first second : Shape.Node) :
    (ofNodes second first).different = (ofNodes first second).different := by
  rw [different_ofNodes, different_ofNodes]
  exact Shape.differ_comm second.toTree first.toTree

theorem ofNodes_self (node : Shape.Node) : ofNodes node node = same :=
  (ofNodes_eq_same_iff node node).mpr ((Shape.differ_eq_false_iff _ _).mpr rfl)

end Verdict

theorem compareSources_eq_ok_iff
    {options : Source.Options} {source transformed : String} {verdict : Verdict} :
    compareSources options source transformed = .ok verdict ↔
      ∃ first second,
        Source.parse options (alignStrict source transformed).1 = .ok first ∧
          Source.parse options (alignStrict source transformed).2 = .ok second ∧
            verdict = Verdict.ofNodes first second := by
  unfold compareSources
  cases readsFirst : Source.parse options (alignStrict source transformed).1 with
  | error fault =>
      simp [readsFirst, bind, Except.bind]
  | ok first =>
      cases readsSecond : Source.parse options (alignStrict source transformed).2 with
      | error fault =>
          simp [readsFirst, readsSecond, bind, Except.bind]
      | ok second =>
          simp [readsFirst, readsSecond, bind, Except.bind, pure, Except.pure, eq_comm]

/-- A verdict in one order gives one in the other, which says the same. -/
theorem compareSources_swap
    {options : Source.Options} {source transformed : String} {verdict : Verdict}
    (compared : compareSources options source transformed = .ok verdict) :
    ∃ exchanged,
      compareSources options transformed source = .ok exchanged ∧
        exchanged.different = verdict.different := by
  obtain ⟨first, second, readsFirst, readsSecond, rfl⟩ := compareSources_eq_ok_iff.mp compared
  refine ⟨Verdict.ofNodes second first, ?_, Verdict.different_ofNodes_swap first second⟩
  apply compareSources_eq_ok_iff.mpr
  rw [alignStrict_swap source transformed, Prod.fst_swap, Prod.snd_swap]
  exact ⟨second, first, readsSecond, readsFirst, rfl⟩

/-- Sources that alignment makes one and the same are not told apart. -/
theorem compareSources_of_aligned_same
    {options : Source.Options} {source transformed text : String} {node : Shape.Node}
    (aligned : alignStrict source transformed = (text, text))
    (reads : Source.parse options text = .ok node) :
    compareSources options source transformed = .ok Verdict.same := by
  apply compareSources_eq_ok_iff.mpr
  rw [aligned]
  exact ⟨node, node, reads, reads, (Verdict.ofNodes_self node).symm⟩

/-- Comparing does not depend on the order of the sources.  Alignment commutes
with exchanging them and changes nothing the second time.  One order gives a
verdict exactly when the other does, and both verdicts say the same.  A source
that reads is not told apart from itself, and a source without the directive is
not told apart, in either order, from itself behind the directive line, as soon
as the latter reads. -/
theorem comparing_is_symmetric_and_reflexive (options : Source.Options) :
    (∀ source transformed,
      alignStrict transformed source = (alignStrict source transformed).swap ∧
        alignStrict (alignStrict source transformed).1 (alignStrict source transformed).2 =
          alignStrict source transformed) ∧
    (∀ source transformed,
      ((∃ verdict, compareSources options source transformed = .ok verdict) ↔
        ∃ exchanged, compareSources options transformed source = .ok exchanged) ∧
      (∀ verdict exchanged,
        compareSources options source transformed = .ok verdict →
          compareSources options transformed source = .ok exchanged →
            verdict.different = exchanged.different)) ∧
    (∀ text node, Source.parse options text = .ok node →
      compareSources options text text = .ok Verdict.same) ∧
    (∀ text node, startsStrict text = false →
      Source.parse options (strictLine ++ text) = .ok node →
        compareSources options (strictLine ++ text) text = .ok Verdict.same ∧
          compareSources options text (strictLine ++ text) = .ok Verdict.same) := by
  refine ⟨?_, ?_, ?_, ?_⟩
  · intro source transformed
    exact ⟨alignStrict_swap source transformed, alignStrict_idempotent source transformed⟩
  · intro source transformed
    refine ⟨⟨?_, ?_⟩, ?_⟩
    · rintro ⟨verdict, compared⟩
      obtain ⟨exchanged, swapped, -⟩ := compareSources_swap compared
      exact ⟨exchanged, swapped⟩
    · rintro ⟨exchanged, compared⟩
      obtain ⟨verdict, swapped, -⟩ := compareSources_swap compared
      exact ⟨verdict, swapped⟩
    · intro verdict exchanged compared swapped
      obtain ⟨other, otherSwapped, sameAnswer⟩ := compareSources_swap compared
      have sameVerdict : other = exchanged :=
        Except.ok.inj (otherSwapped.symm.trans swapped)
      rw [← sameVerdict, sameAnswer]
  · intro text node reads
    exact compareSources_of_aligned_same (alignStrict_of_agree rfl) reads
  · intro text node unmarkedText reads
    have lineMarks := startsStrict_strictLine text
    have aligned :
        alignStrict (strictLine ++ text) text = (strictLine ++ text, strictLine ++ text) := by
      simp [alignStrict, lineMarks, unmarkedText]
    have exchanged :
        alignStrict text (strictLine ++ text) = (strictLine ++ text, strictLine ++ text) := by
      rw [alignStrict_swap, aligned, Prod.swap_prod_mk]
    exact ⟨compareSources_of_aligned_same aligned reads,
      compareSources_of_aligned_same exchanged reads⟩

/-- A comment hides the directive, so the line comes before it and the text is
compared with itself behind two directives. -/
theorem hidden_directive_compares_same_in_both_orders :
    startsStrict "/**/'use strict';f(1)" = false ∧
      (Source.parse {} (strictLine ++ "/**/'use strict';f(1)")).toOption.isSome = true ∧
        compareSources {} (strictLine ++ "/**/'use strict';f(1)") "/**/'use strict';f(1)" =
            .ok Verdict.same ∧
          compareSources {} "/**/'use strict';f(1)" (strictLine ++ "/**/'use strict';f(1)") =
            .ok Verdict.same := by
  have unmarkedText : startsStrict "/**/'use strict';f(1)" = false := by
    decide +kernel
  have reads :
      (Source.parse {} (strictLine ++ "/**/'use strict';f(1)")).toOption.isSome = true := by
    decide +kernel
  refine ⟨unmarkedText, reads, ?_⟩
  obtain ⟨node, found⟩ := Option.isSome_iff_exists.mp reads
  have parsed : Source.parse {} (strictLine ++ "/**/'use strict';f(1)") = .ok node := by
    cases outcome : Source.parse {} (strictLine ++ "/**/'use strict';f(1)") with
    | error fault =>
        rw [outcome] at found
        cases found
    | ok other =>
        rw [outcome] at found
        exact congrArg Except.ok (Option.some.inj found)
  exact (comparing_is_symmetric_and_reflexive {}).2.2.2 _ node unmarkedText parsed

end ShapeAudit
