import ShapeAudit.Proofs.Comparison
import ShapeAudit.Proofs.Source.Context
import ShapeAudit.Proofs.Source.Freedom
import ShapeAudit.Proofs.Source.Lowering
import ShapeAudit.Proofs.Source.Manner

/-!
# Defaults in object patterns

A shorthand entry of an object pattern may have a default, and then the pattern
does not hold the entry itself but the assignment around it.  Lowering looks for
shorthand entries among the children of the pattern only.  So the entry `a = d`
stays an assignment, while `a: t = d` is a property whose value is that same
assignment.  The property around it tells the two apart in every program, though
`a` and `a: t` are not told apart.
-/

namespace ShapeAudit

namespace Source

open Shape (Fields)
open Shape.Tree (erase eraseFields anyLeaf)

/-! ## Plain frames -/

/-- Whether all children of a node are lowered, and none gives way to another. -/
def Kind.isPlain (kind : Kind) : Bool :=
  !kind.isOpaque && !kind.isWrapper && decide (kind ≠ .subscriptExpression) &&
    decide (kind ≠ .templateString)

theorem Kind.of_isPlain {kind : Kind} (isPlain : kind.isPlain = true) :
    kind.isOpaque = false ∧ kind.isWrapper = false ∧ kind ≠ .subscriptExpression ∧
      kind ≠ .templateString := by
  simpa [Kind.isPlain, and_assoc] using isPlain

/-- A node of a plain kind around a hole in one field. -/
def plainFrame (kind : Kind) (isPlain : kind.isPlain = true) (before : List Child)
    (field : Option String) (after : List Child) : Frame where
  kind := kind
  place := ⟨1, 1⟩
  before := before
  field := field
  after := after
  lowered := (Kind.of_isPlain isPlain).1
  isFirst := by
    intro isWrapper
    rw [(Kind.of_isPlain isPlain).2.1] at isWrapper
    cases isWrapper
  noProperty := fun isSubscript => absurd isSubscript (Kind.of_isPlain isPlain).2.2.1

/-! ## Entries with a default -/

/-- A target with a default.  Where the nodes stand is of no account here. -/
def assignedDefault (kind : Kind) (target default : Tree) : Tree :=
  .branch kind ⟨1, 1⟩ [(some "left", target), (none, .token "="), (some "right", default)]

/-- The entry `name = default` of an object pattern. -/
def shorthandDefault (name : String) (default : Tree) : Tree :=
  assignedDefault .objectAssignmentPattern
    (.leaf .shorthandPropertyIdentifierPattern ⟨1, 1⟩ name) default

/-- The pattern `target = default`. -/
def targetDefault (target : String) (default : Tree) : Tree :=
  assignedDefault .assignmentPattern (.leaf .identifier ⟨1, 1⟩ target) default

/-- The entry `name: …` of an object pattern, around its value. -/
def pairFrame (name : String) : Frame :=
  plainFrame .pairPattern rfl
    [(some "key", .leaf .propertyIdentifier ⟨1, 1⟩ name), (none, .token ":")] (some "value") []

/-- The entry `name: target = default` of an object pattern. -/
def longhandDefault (name target : String) (default : Tree) : Tree :=
  (pairFrame name).fill (targetDefault target default)

theorem fits_shorthandDefault (name : String) (default : Tree) :
    Fits (shorthandDefault name default) :=
  fits_branch rfl rfl _ _

theorem fits_targetDefault (target : String) (default : Tree) :
    Fits (targetDefault target default) :=
  fits_branch rfl rfl _ _

section Outlines

variable (options : Options)

/-- The outline of an assignment to a name, with what its default leaves. -/
def assignmentOutline (given : List Entry) : Shape.Tree :=
  .node .assignmentPattern (pushAll (("left", anyLeaf) :: given) []) none

/-- What a default leaves, if it is not refused. -/
def defaultEntries? (default : Tree) : Option (List Entry) :=
  entries? .assignmentPattern false (seen options [(some "right", default)])

theorem outline?_assignedDefault
    {kind : Kind} (isAssignment : kind = .objectAssignmentPattern ∨ kind = .assignmentPattern)
    {target : Tree} {shorthand : Bool}
    (seenAs : sight options target = .node shorthand (some (some anyLeaf)) none)
    (default : Tree) :
    outline? options (assignedDefault kind target default) =
      (defaultEntries? options default).map fun given => some (assignmentOutline given) := by
  have composed : outline? options (assignedDefault kind target default) =
      (entries? .assignmentPattern true (seen options
        [(some "left", target), (none, .token "="), (some "right", default)])).map fun entries =>
          some (.node .assignmentPattern (pushAll entries []) none) := by
    rcases isAssignment with rfl | rfl
    · have sameEntries : ∀ children, entries? .objectAssignmentPattern true children =
          entries? .assignmentPattern true children :=
        entries?_kind (show Kind.objectAssignmentPattern.isArray = Kind.assignmentPattern.isArray
          from rfl) rfl true
      rw [assignedDefault, outline?_eq_compose options (by decide) rfl,
        compose_of_lowered rfl (by decide) (by decide) (by decide), sameEntries]
      rfl
    · rw [assignedDefault, outline?_eq_compose options (by decide) rfl,
        compose_of_lowered rfl (by decide) (by decide) (by decide)]
      rfl
  have left : entries? .assignmentPattern true (seen options
      [(some "left", target), (none, .token "="), (some "right", default)]) =
      (defaultEntries? options default).map fun given => ("left", anyLeaf) :: given := by
    rw [seen_cons, seenAs, seen_cons, defaultEntries?]
    generalize seen options [(some "right", default)] = right
    calc
      _ = (((entries? .assignmentPattern false right).map fun later => [] ++ later).map fun later =>
            [("left", anyLeaf)] ++ later) := by
        rfl
      _ = _ := by
        simp
  rw [composed, left, Option.map_map]
  rfl

/-- Both ways to write the assignment have one outline. -/
theorem outline?_shorthandDefault (name target : String) (default : Tree) :
    outline? options (shorthandDefault name default) =
      outline? options (targetDefault target default) := by
  have isName : (Tree.leaf .shorthandPropertyIdentifierPattern ⟨1, 1⟩ name).kind? =
      some .shorthandPropertyIdentifierPattern := by
    rfl
  have nameSeen : sight options (.leaf .shorthandPropertyIdentifierPattern ⟨1, 1⟩ name) =
      .node true (some (some anyLeaf)) none :=
    sight_of_kind? options isName (by decide) (by decide) rfl
  have targetSeen : sight options (.leaf .identifier ⟨1, 1⟩ target) =
      .node false (some (some anyLeaf)) none :=
    sight_word options rfl (.inl rfl)
  rw [shorthandDefault, targetDefault, outline?_assignedDefault options (.inl rfl) nameSeen,
    outline?_assignedDefault options (.inr rfl) targetSeen]

end Outlines

/-- A pair around the shape of its value. -/
def pairShape (name : String) (value : Shape.Node) : Shape.Node :=
  ⟨.property,
    pushAll [("key", (Shape.Node.leaf .identifier name).toTree), ("value", value.toTree)] [], none⟩

theorem lower_longhandDefault
    {options : Options} {target : String} {default : Tree} {value : Shape.Node}
    (lowered : lower options (targetDefault target default) = .ok (some value)) (name : String) :
    lower options (longhandDefault name target default) = .ok (some (pairShape name value)) := by
  have keyLowered : lower options (.leaf .propertyIdentifier ⟨1, 1⟩ name) =
      .ok (some (Shape.Node.leaf .identifier name)) := by
    rfl
  have noObject : Kind.pairPattern.isObject = false := by
    rfl
  have childrenLowered : lowerChildren options .pairPattern true
      ((some "key", .leaf .propertyIdentifier ⟨1, 1⟩ name) :: (none, .token ":") ::
        [(some "value", targetDefault target default)]) [] =
      .ok (pairShape name value).fields := by
    have noKeyword : isKeptKeyword ":" = false := by
      decide
    have colon : ∀ rest fields, lowerChildren options .pairPattern false
        ((none, .token ":") :: rest) fields =
          lowerChildren options .pairPattern false rest fields := by
      intro rest fields
      simp [lowerChildren, noKeyword, Kind.isArray]
    rw [lowerChildren_of_lower rfl noObject keyLowered, colon,
      lowerChildren_of_lower rfl noObject lowered, lowerChildren]
    simp [pairShape, pushAll]
  exact lower_of_lowerChildren rfl rfl rfl (by decide) childrenLowered

/-! ## Trees that are told apart -/

/-- Two trees are both refused, or they have different outlines. -/
inductive Apart (options : Options) (x y : Tree) : Prop where
  | refused (first : outline? options x = none) (second : outline? options y = none)
  | outlined {u v : Shape.Tree} (first : outline? options x = some (some u))
      (second : outline? options y = some (some v)) (different : u ≠ v)

namespace Apart

variable {options : Options} {x y : Tree}

/-- What carries outlines leaves trees apart. -/
theorem carried
    (apart : Apart options x y) {place : Tree → Tree} (carries : Carries options place)
    (fitsX : Fits x) (fitsY : Fits y) :
    Apart options (place x) (place y) := by
  cases carries with
  | refused refuses =>
      exact .refused (refuses x fitsX) (refuses y fitsY)
  | carried slot injective passesFaults passesOutlines =>
      cases apart with
      | refused first second =>
          exact .refused (passesFaults x fitsX first) (passesFaults y fitsY second)
      | @outlined u v first second different =>
          exact .outlined (passesOutlines x u fitsX first) (passesOutlines y v fitsY second)
            fun same => different (injective same)

theorem of_outlines
    (apart : Apart options x y) {first second : Tree}
    (sameFirst : outline? options first = outline? options x)
    (sameSecond : outline? options second = outline? options y) :
    Apart options first second := by
  cases apart with
  | refused refusedX refusedY =>
      exact .refused (sameFirst.trans refusedX) (sameSecond.trans refusedY)
  | outlined outlinedX outlinedY different =>
      exact .outlined (sameFirst.trans outlinedX) (sameSecond.trans outlinedY) different

/-- Programs that are apart are both lowered or both refused, and never alike. -/
theorem programs (apart : Apart options x y) :
    ((∃ program, lowerProgram options x = .ok program) ↔
      ∃ other, lowerProgram options y = .ok other) ∧
    ∀ program other, lowerProgram options x = .ok program → lowerProgram options y = .ok other →
      program.differ other = true := by
  cases apart with
  | refused first second =>
      have noFirst : ∀ program, lowerProgram options x ≠ .ok program :=
        fun program lowered => outline?_of_lowerProgram lowered first
      have noSecond : ∀ other, lowerProgram options y ≠ .ok other :=
        fun other lowered => outline?_of_lowerProgram lowered second
      exact ⟨by simp [noFirst, noSecond], fun program _ lowered => absurd lowered (noFirst program)⟩
  | outlined first second different =>
      obtain ⟨program, lowered, outlineOfProgram⟩ := lowerProgram_of_outline? first
      obtain ⟨other, otherLowered, outlineOfOther⟩ := lowerProgram_of_outline? second
      refine ⟨⟨fun _ => ⟨other, otherLowered⟩, fun _ => ⟨program, lowered⟩⟩, ?_⟩
      intro someProgram someOther someLowered someOtherLowered
      cases lowered.symm.trans someLowered
      cases otherLowered.symm.trans someOtherLowered
      rw [← Bool.not_eq_false, Shape.Node.differ, Shape.differ_eq_false_iff, outlineOfProgram,
        outlineOfOther]
      exact different

end Apart

/-- With a default, a shorthand entry and its longhand are apart. -/
theorem apart_defaults (options : Options) (name target : String) (default : Tree) :
    Apart options (shorthandDefault name default) (longhandDefault name target default) := by
  have sameOutline := outline?_shorthandDefault options name target default
  have assigned : outline? options (targetDefault target default) =
      (defaultEntries? options default).map fun given => some (assignmentOutline given) :=
    outline?_assignedDefault options (.inr rfl) (sight_word options rfl (.inl rfl)) default
  cases left : defaultEntries? options default with
  | none =>
      rw [left] at assigned
      refine .refused (sameOutline.trans assigned) ?_
      cases carries_frame options (pairFrame name) (Kind.of_isPlain rfl).2.2.2 with
      | refused refuses =>
          exact refuses _ (fits_targetDefault target default)
      | carried slot injective passesFaults carries =>
          exact passesFaults _ (fits_targetDefault target default) assigned
  | some given =>
      rw [left] at assigned
      obtain ⟨shape, lowered, outlineOfShape⟩ := outline?_eq_some_iff.mp assigned
      cases shape with
      | none =>
          cases outlineOfShape
      | some value =>
          have pairLowered := lower_longhandDefault lowered name
          have pairErased : erase (pairShape name value).toTree =
              .node .property (eraseFields (pairShape name value).fields) none :=
            Shape.Tree.erase_structural rfl
          refine .outlined (sameOutline.trans assigned)
            (outline?_eq_some_iff.mpr ⟨_, pairLowered, rfl⟩) ?_
          intro same
          cases (Shape.Tree.node.inj (same.trans pairErased)).1

/-- With a default, a shorthand entry of an object pattern and its longhand are
told apart in every program, whatever the default, the name of the local and the
freedoms taken elsewhere.  The one program is lowered if and only if the other
is.  All the difference is the property around the value: that value and the
shorthand entry are not told apart. -/
theorem default_tells_shorthand_from_longhand
    (options : Options) (context : Context) {pattern : Frame}
    (isPattern : pattern.kind = .objectPattern) (name target : String) (default : Tree)
    {first second : Tree}
    (relatedFirst : Relation.EqvGen Rewritten first
      (context.fill (pattern.fill (shorthandDefault name default))))
    (relatedSecond : Relation.EqvGen Rewritten second
      (context.fill (pattern.fill (longhandDefault name target default)))) :
    ((∃ program, lowerProgram options first = .ok program) ↔
      ∃ other, lowerProgram options second = .ok other) ∧
    (∀ program other, lowerProgram options first = .ok program →
      lowerProgram options second = .ok other → program.differ other = true) ∧
    ∀ entry, lower options (shorthandDefault name default) = .ok (some entry) →
      ∃ pair value, lower options (longhandDefault name target default) = .ok (some pair) ∧
        pair.kind = .property ∧ pair.field "value" = [Shape.Node.toTree value] ∧
        entry.differ value = false := by
  have noTemplate : pattern.kind ≠ .templateString := by
    rw [isPattern]
    decide
  have inPattern := (apart_defaults options name target default).carried
    (carries_frame options pattern noTemplate) (fits_shorthandDefault name default)
    ((pairFrame name).fits_fill _)
  have inProgram := inPattern.carried (carries_context options context) (pattern.fits_fill _)
    (pattern.fits_fill _)
  have apart : Apart options first second := by
    apply inProgram.of_outlines
    · rw [outline?_eq_sight, sight_of_related options relatedFirst, ← outline?_eq_sight]
    · rw [outline?_eq_sight, sight_of_related options relatedSecond, ← outline?_eq_sight]
  refine ⟨apart.programs.1, apart.programs.2, ?_⟩
  intro entry lowered
  have outlined : outline? options (targetDefault target default) =
      some (some (erase entry.toTree)) := by
    rw [← outline?_shorthandDefault options name]
    exact outline?_eq_some_iff.mpr ⟨some entry, lowered, rfl⟩
  obtain ⟨shape, targetLowered, outlineOfShape⟩ := outline?_eq_some_iff.mp outlined
  cases shape with
  | none =>
      cases outlineOfShape
  | some value =>
      refine ⟨_, value, lower_longhandDefault targetLowered name, rfl, ?_, ?_⟩
      · rw [Shape.Node.field, pairShape, get_pushAll_nil]
        rfl
      · exact (Shape.differ_eq_false_iff _ _).mpr (Option.some.inj outlineOfShape).symm

/-- A node of a plain kind around a context. -/
def Context.around (kind : Kind) (isPlain : kind.isPlain = true) (before : List Child)
    (field : Option String) (after : List Child) (inner : Context) : Context :=
  .inside (plainFrame kind isPlain before field after) (Kind.of_isPlain isPlain).2.2.2 inner

/-- The program `var …=o;` around a pattern. -/
def declarationContext : Context :=
  .around .program rfl [] none []
    (.around .variableDeclaration rfl [(none, .token "var")] none [(none, .token ";")]
      (.around .variableDeclarator rfl [] (some "name")
        [(none, .token "="), (some "value", .leaf .identifier ⟨1, 13⟩ "o")] .hole))

/-- An object pattern around its only entry. -/
def singleEntryPattern : Frame :=
  plainFrame .objectPattern rfl [(none, .token "\x7b")] none [(none, .token "\x7d")]

theorem declared_default_is_told_apart :
    ∃ program other,
      lowerProgram {} (declarationContext.fill (singleEntryPattern.fill
        (shorthandDefault "a" (.leaf .number ⟨1, 8⟩ "1")))) = .ok program ∧
      lowerProgram {} (declarationContext.fill (singleEntryPattern.fill
        (longhandDefault "a" "t" (.leaf .number ⟨1, 8⟩ "1")))) = .ok other ∧
      program.differ other = true := by
  obtain ⟨bothLowered, toldApart, -⟩ := default_tells_shorthand_from_longhand {}
    declarationContext (show singleEntryPattern.kind = .objectPattern from rfl) "a" "t"
    (.leaf .number ⟨1, 8⟩ "1") (.refl _) (.refl _)
  obtain ⟨program, lowered⟩ : ∃ program,
      lowerProgram {} (declarationContext.fill (singleEntryPattern.fill
        (shorthandDefault "a" (.leaf .number ⟨1, 8⟩ "1")))) = .ok program :=
    ⟨_, rfl⟩
  obtain ⟨other, otherLowered⟩ := bothLowered.mp ⟨program, lowered⟩
  exact ⟨program, other, lowered, otherLowered, toldApart program other lowered otherLowered⟩

end Source

/-- A renamed local is no difference without a default, and with one it is. -/
theorem renamed_local_with_default_compares_different :
    readAlike {} "var \x7ba\x7d = o;" "var \x7ba: t\x7d = o;" = true ∧
      (compareSources {} "var \x7ba = 1\x7d = o;" "var \x7ba: a = 1\x7d = o;").toOption.map
          Verdict.different =
        some true ∧
      (compareSources {} "var \x7ba = 1\x7d = o;" "var \x7ba: t = 1\x7d = o;").toOption.map
          Verdict.different =
        some true := by
  decide +kernel

end ShapeAudit
