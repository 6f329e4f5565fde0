import ShapeAudit.Comparison
import ShapeAudit.Proofs.Shape.Erasure
import ShapeAudit.Proofs.Source.Directive

/-!
# Alignment of the strict directive

Comparing two sources aligns them by their first characters, while the verdict
is on their shapes.  Two sources of one shape keep the verdict that nothing
tells them apart exactly when both begin with the text of the directive or
neither does, or when the source that gets the directive line still has the
shape it had.  It cannot still have it where the first statement is anything
but a lone name or literal, or where the line adds a statement; and where the
line makes the source malformed, there is no verdict at all.
-/

namespace ShapeAudit

open Shape (childrenField)

/-! ## Verdicts -/

namespace Verdict

/-- The verdict on two programs that are not told apart. -/
def same : Verdict :=
  ⟨false, none⟩

theorem different_ofNodes (first second : Shape.Node) :
    (ofNodes first second).different = first.differ second := by
  simp [ofNodes, Shape.Node.firstDivergence?, Shape.Node.differ, Shape.differ]

theorem ofNodes_eq_same_iff (first second : Shape.Node) :
    ofNodes first second = same ↔ first.differ second = false := by
  cases found : Shape.treeTrail? first.toTree second.toTree with
  | none =>
      simp [ofNodes, same, Shape.Node.firstDivergence?, Shape.Node.differ,
        Shape.differ, found]
  | some trail =>
      simp [ofNodes, same, Shape.Node.firstDivergence?, Shape.Node.differ,
        Shape.differ, found]

end Verdict

/-! ## Alignment -/

/-- The source that gets the directive line, where exactly one of the two
begins with the directive. -/
def unmarked (source transformed : String) : String :=
  if startsStrict source then transformed else source

theorem alignStrict_of_agree
    {source transformed : String}
    (agree : startsStrict source = startsStrict transformed) :
    alignStrict source transformed = (source, transformed) := by
  cases marked : startsStrict transformed with
  | false =>
      simp [alignStrict, agree, marked]
  | true =>
      simp [alignStrict, agree, marked]

theorem alignStrict_of_disagree
    {source transformed : String}
    (disagree : startsStrict source ≠ startsStrict transformed) :
    alignStrict source transformed =
      if startsStrict source then
        (source, strictLine ++ unmarked source transformed)
      else
        (strictLine ++ unmarked source transformed, transformed) := by
  cases markedFirst : startsStrict source with
  | false =>
      have markedSecond : startsStrict transformed = true := by
        simpa [markedFirst] using disagree
      simp [alignStrict, unmarked, markedFirst, markedSecond]
  | true =>
      have markedSecond : startsStrict transformed = false := by
        simpa [markedFirst] using disagree
      simp [alignStrict, unmarked, markedFirst, markedSecond]

/-! ## The directive line before a source -/

theorem dropBlankEnd_append_cons
    {c : Char} (visible : Text.isBlank c = false) (front back : List Char) :
    Text.dropBlankEnd (front ++ c :: back) = front ++ c :: Text.dropBlankEnd back := by
  have stops : ∀ blanks : List Char,
      (blanks ++ c :: front.reverse).dropWhile Text.isBlank =
        blanks.dropWhile Text.isBlank ++ c :: front.reverse := by
    intro blanks
    induction blanks with
    | nil =>
        simp [visible]
    | cons blank rest inductionHypothesis =>
        cases isBlank : Text.isBlank blank with
        | false =>
            simp [isBlank]
        | true =>
            simpa [isBlank] using inductionHypothesis
  simp [Text.dropBlankEnd, stops]

theorem trimChars_strictLine (text : String) :
    Text.trimChars (strictLine ++ text).toList =
      "\"use strict\"".toList ++ ';' :: Text.dropBlankEnd ('\n' :: text.toList) := by
  have visible : Text.isBlank ';' = false := by
    decide
  rw [← dropBlankEnd_append_cons visible]
  simp [strictLine, Text.trimChars, Text.isBlank]

theorem atString_strictLine (text : String) :
    (Source.Cursor.start (Text.trimChars (strictLine ++ text).toList)).AtString 11
      (Text.dropBlankEnd ('\n' :: text.toList)) := by
  rw [trimChars_strictLine]
  refine ⟨⟨rfl, Or.inl rfl, Or.inl rfl, rfl⟩, ?_, rfl⟩
  simp [Source.Cursor.start, Source.Lexeme.string, Source.Lexeme.stringTail, Source.isNul]

/-- Whether the first statement of a program is a lone name or literal, which
is what the directive itself is. -/
def opensWithLeaf (program : Shape.Node) : Bool :=
  (program.field childrenField).head?.any fun statement =>
    !Shape.differ statement (Source.stringShape "").toTree

/-- Programs that are not told apart have their statements alike, one by one. -/
theorem statements_of_alike
    {options : Source.Options} {source transformed : String}
    {first second : Shape.Node}
    (readsFirst : Source.parse options source = .ok first)
    (readsSecond : Source.parse options transformed = .ok second)
    (alike : first.differ second = false) :
    Shape.Tree.eraseItems (first.field childrenField) =
      Shape.Tree.eraseItems (second.field childrenField) := by
  have firstKind := Source.kind_of_parse readsFirst
  have secondKind := Source.kind_of_parse readsSecond
  have structural : first.kind.isLexical = false := by
    rw [firstKind]
    rfl
  exact Shape.eraseItems_field_of_alike structural (firstKind.trans secondKind.symm) alike
    childrenField

/-- A program that is not told apart from one with the directive line opens
with a lone name or literal. -/
theorem opensWithLeaf_of_alike
    {options : Source.Options} {text source : String} {extended program : Shape.Node}
    (readsExtended : Source.parse options (strictLine ++ text) = .ok extended)
    (readsProgram : Source.parse options source = .ok program)
    (alike : extended.differ program = false) :
    opensWithLeaf program = true := by
  obtain ⟨spelling, others, extendedField⟩ :=
    Source.parse_atString (atString_strictLine text) readsExtended
  have fieldsAlike := statements_of_alike readsExtended readsProgram alike
  rw [extendedField] at fieldsAlike
  cases programField : program.field childrenField with
  | nil =>
      simp [programField, Shape.Tree.eraseItems] at fieldsAlike
  | cons statement rest =>
      rw [programField, Shape.Tree.eraseItems, Shape.Tree.eraseItems] at fieldsAlike
      have statementsAlike := (List.cons.inj fieldsAlike).1
      have leafAlike :
          Shape.differ statement (Source.stringShape "").toTree = false := by
        rw [Shape.differ_eq_false_iff, ← statementsAlike]
        rfl
      simp [opensWithLeaf, programField, leafAlike]

/-! ## The outcome on sources of one shape -/

section OneShape

variable {options : Source.Options} {source transformed : String}
  {first second : Shape.Node}
  (readsFirst : Source.parse options source = .ok first)
  (readsSecond : Source.parse options transformed = .ok second)

include readsFirst

theorem compareSources_of_fault
    (disagree : startsStrict source ≠ startsStrict transformed)
    {fault : Source.Fault}
    (fails : Source.parse options (strictLine ++ unmarked source transformed) =
      .error fault) :
    compareSources options source transformed = .error fault := by
  cases marked : startsStrict source with
  | false =>
      simp [compareSources, alignStrict_of_disagree disagree, marked, fails, bind,
        Except.bind]
  | true =>
      simp [compareSources, alignStrict_of_disagree disagree, marked, readsFirst, fails,
        bind, Except.bind]

include readsSecond

theorem compareSources_of_agree
    (agree : startsStrict source = startsStrict transformed) :
    compareSources options source transformed =
      .ok (Verdict.ofNodes first second) := by
  simp [compareSources, alignStrict_of_agree agree, readsFirst, readsSecond, bind,
    Except.bind, pure, Except.pure]

/-- Where one source gets the directive line, the verdict is on its new shape
and the shape that both sources had. -/
theorem compareSources_of_extended
    (alike : first.differ second = false)
    (disagree : startsStrict source ≠ startsStrict transformed)
    {extended : Shape.Node}
    (readsExtended : Source.parse options (strictLine ++ unmarked source transformed) =
      .ok extended) :
    ∃ left right,
      compareSources options source transformed = .ok (Verdict.ofNodes left right) ∧
        left.differ right = extended.differ first := by
  cases marked : startsStrict source with
  | false =>
      refine ⟨extended, second, ?_, ?_⟩
      · simp [compareSources, alignStrict_of_disagree disagree, marked, readsExtended,
          readsSecond, bind, Except.bind, pure, Except.pure]
      · exact (Shape.differ_congr_right alike extended.toTree).symm
  | true =>
      refine ⟨first, extended, ?_, ?_⟩
      · simp [compareSources, alignStrict_of_disagree disagree, marked, readsExtended,
          readsFirst, bind, Except.bind, pure, Except.pure]
      · exact Shape.differ_comm first.toTree extended.toTree

/-- Nothing tells two sources of one shape apart exactly when alignment leaves
them alone or the source that gets the directive line keeps its shape. -/
theorem compareSources_eq_same_iff (alike : first.differ second = false) :
    compareSources options source transformed = .ok Verdict.same ↔
      startsStrict source = startsStrict transformed ∨
        ∃ extended,
          Source.parse options (strictLine ++ unmarked source transformed) =
              .ok extended ∧
            extended.differ first = false := by
  by_cases agree : startsStrict source = startsStrict transformed
  · have isSame := (Verdict.ofNodes_eq_same_iff first second).mpr alike
    simp [compareSources_of_agree readsFirst readsSecond agree, isSame, agree]
  · cases outcome : Source.parse options (strictLine ++ unmarked source transformed) with
    | error fault =>
        simp [compareSources_of_fault readsFirst agree outcome, agree]
    | ok extended =>
        obtain ⟨left, right, compared, sameAnswer⟩ :=
          compareSources_of_extended readsFirst readsSecond alike agree outcome
        simp [compared, Verdict.ofNodes_eq_same_iff, sameAnswer, agree]

/-- What comparing makes of two sources of one shape.  Nothing tells them apart
exactly when alignment leaves them alone or the source that gets the directive
line keeps its shape.  In every other case the fault of that source is
reported, or the verdict is that they differ; they do differ when the line
changes how many statements there are, and when the first statement is not a
lone name or literal. -/
theorem alike_sources_compare_same_iff
    (alike : first.differ second = false) :
    (compareSources options source transformed = .ok Verdict.same ↔
        startsStrict source = startsStrict transformed ∨
          ∃ extended,
            Source.parse options (strictLine ++ unmarked source transformed) =
                .ok extended ∧
              extended.differ first = false) ∧
      (startsStrict source ≠ startsStrict transformed →
        (∀ fault,
          Source.parse options (strictLine ++ unmarked source transformed) =
              .error fault →
            compareSources options source transformed = .error fault) ∧
          (∀ extended,
            Source.parse options (strictLine ++ unmarked source transformed) =
                .ok extended →
              ∃ verdict,
                compareSources options source transformed = .ok verdict ∧
                  verdict.different = extended.differ first ∧
                  ((extended.field childrenField).length ≠
                      (first.field childrenField).length →
                    verdict.different = true) ∧
                  (opensWithLeaf first = false → verdict.different = true))) := by
  refine ⟨compareSources_eq_same_iff readsFirst readsSecond alike, ?_⟩
  intro disagree
  refine ⟨fun fault => compareSources_of_fault readsFirst disagree, ?_⟩
  intro extended readsExtended
  obtain ⟨left, right, compared, sameAnswer⟩ :=
    compareSources_of_extended readsFirst readsSecond alike disagree readsExtended
  refine ⟨Verdict.ofNodes left right, compared, ?_⟩
  rw [Verdict.different_ofNodes, sameAnswer]
  refine ⟨rfl, ?_, ?_⟩
  · intro lengthsDiffer
    rw [← Bool.not_eq_false]
    intro extendedAlike
    exact lengthsDiffer (Shape.Tree.length_eq_of_eraseItems_eq
      (statements_of_alike readsExtended readsFirst extendedAlike))
  · intro noLeaf
    rw [← Bool.not_eq_false]
    intro extendedAlike
    simp [opensWithLeaf_of_alike readsExtended readsFirst extendedAlike] at noLeaf

end OneShape

/-- Whether two sources read and have one shape. -/
def readAlike (options : Source.Options) (source transformed : String) : Bool :=
  match Source.parse options source, Source.parse options transformed with
  | .ok first, .ok second => !first.differ second
  | _, _ => false

theorem readAlike_iff (options : Source.Options) (source transformed : String) :
    readAlike options source transformed = true ↔
      ∃ first second,
        Source.parse options source = .ok first ∧
          Source.parse options transformed = .ok second ∧
            first.differ second = false := by
  unfold readAlike
  cases Source.parse options source with
  | error fault =>
      simp
  | ok first =>
      cases Source.parse options transformed with
      | error fault =>
          simp
      | ok second =>
          simp

theorem directives_in_other_quotes_compare_same :
    readAlike {} "\"use strict\";f(1)" "'use strict';g(2)" = true ∧
      compareSources {} "\"use strict\";f(1)" "'use strict';g(2)" =
        .ok Verdict.same := by
  have alike : readAlike {} "\"use strict\";f(1)" "'use strict';g(2)" = true := by
    decide +kernel
  obtain ⟨first, second, readsFirst, readsSecond, same⟩ := (readAlike_iff _ _ _).mp alike
  have agree : startsStrict "\"use strict\";f(1)" = startsStrict "'use strict';g(2)" := by
    decide +kernel
  exact ⟨alike,
    (alike_sources_compare_same_iff readsFirst readsSecond same).1.mpr (Or.inl agree)⟩

/-- A comment before the directive hides it from alignment, and the directive
line then counts as another statement. -/
theorem comment_before_directive_compares_different :
    readAlike {} "/**/\"use strict\"" "\"use strict\"" = true ∧
      (compareSources {} "/**/\"use strict\"" "\"use strict\"").toOption.map
          Verdict.different =
        some true := by
  decide +kernel

-- These two have one shape, only the first begins with the directive, and yet
-- nothing tells them apart.  Behind the directive line, the line separator that begins the
-- second is no longer trimmed but is a name, and what was a regular expression
-- becomes a division of that name with a comment in it.
example :
    ((Source.parse {} "\"use strict\"; x/[1]").toOption.bind fun first =>
        (Source.parse {} "\u2028/[/*]/\nx/[\"*/ 1];//\"]").toOption.map first.differ) =
      some false ∧
    startsStrict "\"use strict\"; x/[1]" ≠
      startsStrict "\u2028/[/*]/\nx/[\"*/ 1];//\"]" ∧
    (compareSources {} "\"use strict\"; x/[1]"
        "\u2028/[/*]/\nx/[\"*/ 1];//\"]").toOption.map Verdict.different =
      some false := by
  decide +kernel

end ShapeAudit
