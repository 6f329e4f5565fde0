import Mathlib.Logic.Function.Basic
import ShapeAudit.Proofs.Source.Outline

/-!
# Contexts

A context is a tree with a hole where another tree may stand.  To the outline of
that tree it does one of two things: it is refused, whatever stands in the hole,
or it maps the outline to its own by an injection.  So a context neither hides
nor makes up a difference between two trees, and since a keyword or an operator
that is kept makes a difference in its node, it makes one in the whole source.
-/

namespace ShapeAudit.Source

open Shape.Tree (erase anyLeaf)

/-! ## Trees with a hole -/

namespace Kind

/-- Whether the children of a node are never lowered, because the node is read
as text or leaves no trace. -/
def isOpaque (kind : Kind) : Bool :=
  kind.isExtra || kind = .hashBangLine ||
    kind.shape?.any fun shape =>
      shape.isLexical || shape = .privateIdentifier || shape = .jsxText

/-- Whether only the first proper child of a node is lowered. -/
def isWrapper : Kind → Bool
  | .parenthesizedExpression | .computedPropertyName | .templateSubstitution => true
  | _ => false

end Kind

/-- A node with a hole among its children.  Its children are lowered, the hole is
the first proper one where only that counts, and it is not the field of a
subscript that gives way to the index. -/
structure Frame where
  kind : Kind
  place : Place
  before : List Child
  field : Option String
  after : List Child
  lowered : kind.isOpaque = false
  isFirst : kind.isWrapper = true → ∀ child ∈ before, child.2.isProper = false
  noProperty : kind = .subscriptExpression → field ≠ some "property"

/-- A tree in the hole of a node. -/
def Frame.fill (frame : Frame) (tree : Tree) : Tree :=
  .branch frame.kind frame.place (frame.before ++ (frame.field, tree) :: frame.after)

/-- A tree with a hole: the hole alone, a node around one, or a template around
a substitution, which are the only children of templates that are lowered. -/
inductive Context where
  | hole
  | inside (frame : Frame) (noTemplate : frame.kind ≠ .templateString) (inner : Context)
  | substituted (template substitution : Frame) (isTemplate : template.kind = .templateString)
      (isSubstitution : substitution.kind = .templateSubstitution) (inner : Context)

/-- A tree in the hole of a context. -/
def Context.fill : Context → Tree → Tree
  | .hole, tree => tree
  | .inside frame _ inner, tree => frame.fill (inner.fill tree)
  | .substituted template substitution _ _ inner, tree =>
    template.fill (substitution.fill (inner.fill tree))

/-- Whether a tree may stand in a hole: it is neither a token nor a comment nor a
shorthand entry. -/
structure Fits (tree : Tree) : Prop where
  proper : tree.isProper = true
  noShorthand : tree.kind?.any Kind.isShorthand = false

theorem Frame.notPrivate (frame : Frame) : frame.kind ≠ .privatePropertyIdentifier := by
  intro isPrivate
  have lowered := frame.lowered
  rw [isPrivate] at lowered
  cases lowered

theorem Frame.notExtra (frame : Frame) : frame.kind.isExtra = false := by
  have lowered := frame.lowered
  simp [Kind.isOpaque] at lowered
  exact lowered.1.1

theorem Kind.noShorthand_of_lowered {kind : Kind} (lowered : kind.isOpaque = false) :
    kind.isShorthand = false := by
  cases shorthand : kind.isShorthand with
  | false =>
      rfl
  | true =>
      unfold Kind.isShorthand at shorthand
      split at shorthand
      · cases lowered
      · cases lowered
      · cases shorthand

theorem fits_branch
    {kind : Kind} (notExtra : kind.isExtra = false) (noShorthand : kind.isShorthand = false)
    (place : Place) (children : List Child) :
    Fits (.branch kind place children) where
  proper := by
    simp [Tree.isProper, Tree.isExtra, Tree.kind?, notExtra]
  noShorthand := noShorthand

theorem Frame.fits_fill (frame : Frame) (tree : Tree) : Fits (frame.fill tree) :=
  fits_branch frame.notExtra (Kind.noShorthand_of_lowered frame.lowered) _ _

theorem Context.fits_fill (context : Context) {tree : Tree} (fits : Fits tree) :
    Fits (context.fill tree) := by
  cases context with
  | hole =>
      exact fits
  | inside frame noTemplate inner =>
      exact frame.fits_fill _
  | substituted template substitution isTemplate isSubstitution inner =>
      exact template.fits_fill _

/-! ## Nodes around a hole -/

theorem shape?_of_gate
    {options : Options} {kind : Kind} {shape : Shape.Kind}
    (gated : gate options kind = some shape) :
    kind.shape? = some shape := by
  unfold gate shapeOf at gated
  split at gated
  · cases gated
  · split at gated
    · cases gated
    · split at gated
      · cases gated
      · rename_i found _ _
        rw [found]
        exact gated

/-- A node that is lowered in the general way is made of what all its children
leave. -/
theorem compose_of_lowered
    {kind : Kind} (lowered : kind.isOpaque = false)
    (noParentheses : kind ≠ .parenthesizedExpression)
    (noComputed : kind ≠ .computedPropertyName) (noTemplate : kind ≠ .templateString)
    (options : Options) (children : List Seen) :
    compose options kind children =
      (gate options kind).bind fun shape =>
        (entries? kind true children).map fun entries =>
          some (.node shape (settle kind (pushAll entries [])) none) := by
  unfold compose
  split
  · cases lowered
  · cases lowered
  · cases lowered
  · exact absurd rfl noParentheses
  · exact absurd rfl noComputed
  · exact absurd rfl noTemplate
  · cases gated : gate options kind with
    | none =>
        rfl
    | some shape =>
        have found := shape?_of_gate gated
        simp [Kind.isOpaque, found] at lowered
        simp [lowered]

theorem first?_around
    {options : Options} {before : List Child}
    (noProper : ∀ child ∈ before, child.2.isProper = false) (field : Option String)
    (shorthand : Bool) (outline : Option (Option Shape.Tree))
    (substituted : Option (Option (Option Shape.Tree))) (after : List Seen) :
    first? (seen options before ++ (field, .node shorthand outline substituted) :: after) =
      outline := by
  induction before with
  | nil =>
      rfl
  | cons child rest inductionHypothesis =>
      have inRest := inductionHypothesis fun other isOther =>
        noProper other (List.mem_cons_of_mem child isOther)
      rcases sight_of_not_isProper options (noProper child List.mem_cons_self) with
        ⟨spelling, seenAs⟩ | seenAs
      · rw [seen_cons, seenAs]
        exact inRest
      · rw [seen_cons, seenAs]
        exact inRest

theorem pieces?_append (before : List Seen) :
    ∃ lead : Option (List Entry), ∀ rest,
      pieces? (before ++ rest) =
        lead.bind fun earlier => (pieces? rest).map fun later => earlier ++ later := by
  induction before with
  | nil =>
      exact ⟨some [], fun rest => by simp⟩
  | cons child others inductionHypothesis =>
      obtain ⟨lead, inRest⟩ := inductionHypothesis
      refine ⟨child.2.pieces?.bind fun here => lead.map fun earlier => here ++ earlier, ?_⟩
      intro rest
      rw [List.cons_append, pieces?, inRest]
      cases child.2.pieces? with
      | none =>
          rfl
      | some here =>
          cases lead with
          | none =>
              rfl
          | some earlier =>
              simp [Option.map_map, Function.comp_def]

/-! ## Contexts carry outlines -/

/-- What a place for trees does to their outlines: it is refused whatever stands
there, or it carries them into its own outline by an injection. -/
inductive Carries (options : Options) (place : Tree → Tree) : Prop where
  | refused (refuses : ∀ tree, Fits tree → outline? options (place tree) = none)
  | carried (slot : Shape.Tree → Shape.Tree) (injective : Function.Injective slot)
      (passesFaults : ∀ tree, Fits tree → outline? options tree = none →
        outline? options (place tree) = none)
      (carries : ∀ tree outline, Fits tree → outline? options tree = some (some outline) →
        outline? options (place tree) = some (some (slot outline)))

/-- The outline of a node whose kind may be refused, with entries around those of
one child. -/
def nodeAround (kind : Kind) (gated : Option Shape.Kind) (before after : Option (List Entry))
    (here : List Entry) : Option (Option Shape.Tree) :=
  gated.bind fun shape => before.bind fun earlier => after.map fun later =>
    some (.node shape (settle kind (pushAll (earlier ++ (here ++ later)) [])) none)

/-- Such a node is refused whatever the child leaves, or of two values in one
field it makes different nodes. -/
theorem nodeAround_cases
    {kind : Kind} {name : String}
    (notLost : kind = .subscriptExpression → name ≠ "property") (gated : Option Shape.Kind)
    (before after : Option (List Entry)) :
    (∀ here, nodeAround kind gated before after here = none) ∨
      ∃ slot : Shape.Tree → Shape.Tree, Function.Injective slot ∧
        ∀ value, nodeAround kind gated before after [(name, value)] = some (some (slot value)) := by
  cases gated with
  | none =>
      exact .inl fun _ => rfl
  | some shape =>
      cases before with
      | none =>
          exact .inl fun _ => rfl
      | some earlier =>
          cases after with
          | none =>
              exact .inl fun _ => rfl
          | some later =>
              refine .inr ⟨fun value => .node shape
                (settle kind (pushAll (earlier ++ (name, value) :: later) [])) none, ?_, ?_⟩
              · intro first second same
                have sameFields := (Shape.Tree.node.inj same).2.1
                have differ := differAt_pushAll earlier later name first second
                exact differ.value_eq_of_settle notLost sameFields
              · intro value
                rfl

theorem carries_of_nodeAround
    {options : Options} {place : Tree → Tree} {kind : Kind} {name : String}
    (notLost : kind = .subscriptExpression → name ≠ "property")
    (gated : Option Shape.Kind) (before after : Option (List Entry))
    (composed : ∀ tree, Fits tree → outline? options (place tree) =
      (outline? options tree).bind fun outline =>
        nodeAround kind gated before after
          (outline.map fun value => (name, value)).toList) :
    Carries options place := by
  rcases nodeAround_cases notLost gated before after with refuses | ⟨slot, injective, made⟩
  · refine .refused fun tree fits => ?_
    rw [composed tree fits]
    cases outline? options tree with
    | none =>
        rfl
    | some outline =>
        exact refuses _
  · refine .carried slot injective ?_ ?_
    · intro tree fits refused
      rw [composed tree fits, refused]
      rfl
    · intro tree outline fits outlined
      rw [composed tree fits, outlined]
      exact made outline

section Frames

variable (options : Options) (frame : Frame)

theorem sight_of_fits {tree : Tree} (fits : Fits tree) :
    sight options tree =
      .node false (outline? options tree) (substituted? options tree) := by
  rw [sight_of_isProper options fits.proper, fits.noShorthand]

theorem outline?_fill {tree : Tree} (fits : Fits tree) :
    outline? options (frame.fill tree) =
      compose options frame.kind
        (seen options frame.before ++
          (frame.field, .node false (outline? options tree) (substituted? options tree)) ::
            seen options frame.after) := by
  rw [Frame.fill, outline?_eq_compose options frame.notPrivate rfl, ← sight_of_fits options fits]
  simp [Tree.children]

theorem carries_of_wrapper
    (isWrapper : frame.kind = .parenthesizedExpression ∨ frame.kind = .computedPropertyName) :
    Carries options frame.fill := by
  have same : ∀ tree, Fits tree →
      outline? options (frame.fill tree) = outline? options tree := by
    intro tree fits
    rw [outline?_fill options frame fits]
    rcases isWrapper with isParentheses | isComputed
    · have noProper := frame.isFirst (by rw [isParentheses]; rfl)
      rw [isParentheses]
      exact first?_around noProper _ _ _ _ _
    · have noProper := frame.isFirst (by rw [isComputed]; rfl)
      rw [isComputed]
      exact first?_around noProper _ _ _ _ _
  refine .carried id Function.injective_id ?_ ?_
  · intro tree fits refused
    rw [same tree fits, refused]
  · intro tree outline fits outlined
    rw [same tree fits, outlined]
    rfl

/-- The field that the hole is in is not lost. -/
theorem notLost_of_frame {default : String} (kept : default ≠ "property") :
    frame.kind = .subscriptExpression → frame.field.getD default ≠ "property" := by
  intro isSubscript
  have noProperty := frame.noProperty isSubscript
  cases inField : frame.field with
  | none =>
      exact kept
  | some name =>
      rintro rfl
      exact noProperty inField

theorem carries_of_general
    (noParentheses : frame.kind ≠ .parenthesizedExpression)
    (noComputed : frame.kind ≠ .computedPropertyName)
    (noTemplate : frame.kind ≠ .templateString) :
    Carries options frame.fill := by
  apply carries_of_nodeAround
    (notLost_of_frame frame (show Shape.childrenField ≠ "property" by decide))
    (gate options frame.kind) (entries? frame.kind true (seen options frame.before))
    (entries? frame.kind false (seen options frame.after))
  intro tree fits
  rw [outline?_fill options frame fits,
    compose_of_lowered frame.lowered noParentheses noComputed noTemplate, entries?_around]
  cases outline? options tree <;> cases gate options frame.kind <;>
    cases entries? frame.kind true (seen options frame.before) <;>
      simp [nodeAround, Sight.entries?, Function.comp_def]

theorem carries_frame (noTemplate : frame.kind ≠ .templateString) :
    Carries options frame.fill := by
  by_cases isParentheses : frame.kind = .parenthesizedExpression
  · exact carries_of_wrapper options frame (.inl isParentheses)
  · by_cases isComputed : frame.kind = .computedPropertyName
    · exact carries_of_wrapper options frame (.inr isComputed)
    · exact carries_of_general options frame isParentheses isComputed noTemplate

end Frames

theorem carries_template
    (options : Options) {template substitution : Frame}
    (isTemplate : template.kind = .templateString)
    (isSubstitution : substitution.kind = .templateSubstitution) :
    Carries options fun tree => template.fill (substitution.fill tree) := by
  have substituted : ∀ tree, Fits tree →
      substituted? options (substitution.fill tree) = some (outline? options tree) := by
    intro tree fits
    have noProper := substitution.isFirst (by rw [isSubstitution]; rfl)
    rw [Frame.fill, isSubstitution, substituted?, lowerFirst_eq_first, seen_append, seen_cons,
      sight_of_fits options fits, first?_around noProper]
  have notLost : Kind.templateString = .subscriptExpression → "expressions" ≠ "property" := by
    decide
  obtain ⟨lead, around⟩ := pieces?_append (seen options template.before)
  apply carries_of_nodeAround notLost (some .templateLiteral)
    (lead.map fun earlier => earlier ++ [("quasis", anyLeaf)])
    (pieces? (seen options template.after))
  intro tree fits
  rw [outline?_fill options template (substitution.fits_fill tree), substituted tree fits,
    isTemplate, compose, around, pieces?, Sight.pieces?]
  cases outline? options tree <;> cases lead <;>
    simp [nodeAround, settle, Function.comp_def]

theorem Carries.comp
    {options : Options} {outer inner : Tree → Tree} (outerCarries : Carries options outer)
    (innerCarries : Carries options inner) (fits : ∀ tree, Fits tree → Fits (inner tree)) :
    Carries options fun tree => outer (inner tree) := by
  cases outerCarries with
  | refused refuses =>
      exact .refused fun tree fitsTree => refuses _ (fits tree fitsTree)
  | carried outerSlot outerInjective outerFaults outerOutlines =>
      cases innerCarries with
      | refused refuses =>
          exact .refused fun tree fitsTree =>
            outerFaults _ (fits tree fitsTree) (refuses tree fitsTree)
      | carried slot injective passesFaults carries =>
          refine .carried (outerSlot ∘ slot) (outerInjective.comp injective) ?_ ?_
          · intro tree fitsTree refused
            exact outerFaults _ (fits tree fitsTree) (passesFaults tree fitsTree refused)
          · intro tree outline fitsTree outlined
            exact outerOutlines _ _ (fits tree fitsTree) (carries tree outline fitsTree outlined)

/-- A context carries outlines, layer by layer. -/
theorem carries_context (options : Options) (context : Context) :
    Carries options context.fill := by
  induction context with
  | hole =>
      exact .carried id Function.injective_id (fun _ _ refused => refused)
        (fun _ _ _ outlined => outlined)
  | inside frame noTemplate inner inductionHypothesis =>
      exact (carries_frame options frame noTemplate).comp inductionHypothesis
        fun tree fits => inner.fits_fill fits
  | substituted template substitution isTemplate isSubstitution inner inductionHypothesis =>
      exact (carries_template options isTemplate isSubstitution).comp inductionHypothesis
        fun tree fits => inner.fits_fill fits

/-! ## Tokens -/

/-- Whether a token is kept, in a field or outside of all fields. -/
def isKept (field : Option String) (token : String) : Bool :=
  match field with
  | some name => !isFieldModifier name token
  | none => isKeptKeyword token

theorem tokenEntries_of_isKept
    {field : Option String} {token : String} (kept : isKept field token = true) :
    tokenEntries field token = [(field.getD Shape.tokensField, .word token)] := by
  cases field with
  | none =>
      have isKeyword : isKeptKeyword token = true := kept
      simp [tokenEntries, isKeyword]
  | some name =>
      have noModifier : isFieldModifier name token = false := by
        simpa [isKept] using kept
      simp [tokenEntries, noModifier]

theorem entries?_token
    {kind : Kind} (noArray : kind.isArray = false) {field : Option String} {token : String}
    (kept : isKept field token = true) (before after : List Seen) :
    entries? kind true (before ++ (field, .token token) :: after) =
      (entries? kind true before).bind fun earlier =>
        (entries? kind true after).map fun later =>
          earlier ++ (field.getD Shape.tokensField, .word token) :: later := by
  have here :
      (Sight.token token).entries? kind true field =
        some [(field.getD Shape.tokensField, .word token)] := by
    simp [Sight.entries?, noArray, tokenEntries_of_isKept kept]
  rw [entries?_append, entries?_awaiting noArray (_ :: after) _ true, entries?, here,
    entries?_awaiting noArray after _ true]
  simp [Option.map_map, Function.comp_def]

/-- Kept tokens go into the outline of their node by an injection, unless the
node is refused. -/
theorem carries_token
    (options : Options) (frame : Frame) (noWrapper : frame.kind.isWrapper = false)
    (noTemplate : frame.kind ≠ .templateString) (noArray : frame.kind.isArray = false) :
    (∀ token, isKept frame.field token = true →
      outline? options (frame.fill (.token token)) = none) ∨
    ∃ slot : Shape.Tree → Shape.Tree, Function.Injective slot ∧
      ∀ token, isKept frame.field token = true →
        outline? options (frame.fill (.token token)) = some (some (slot (.word token))) := by
  have noParentheses : frame.kind ≠ .parenthesizedExpression := by
    intro isParentheses
    rw [isParentheses] at noWrapper
    cases noWrapper
  have noComputed : frame.kind ≠ .computedPropertyName := by
    intro isComputed
    rw [isComputed] at noWrapper
    cases noWrapper
  have composed : ∀ token, isKept frame.field token = true →
      outline? options (frame.fill (.token token)) =
        nodeAround frame.kind (gate options frame.kind)
          (entries? frame.kind true (seen options frame.before))
          (entries? frame.kind true (seen options frame.after))
          [(frame.field.getD Shape.tokensField, .word token)] := by
    intro token kept
    rw [Frame.fill, outline?_eq_compose options frame.notPrivate rfl,
      compose_of_lowered frame.lowered noParentheses noComputed noTemplate, Tree.children,
      seen_append, seen_cons, sight, entries?_token noArray kept]
    cases entries? frame.kind true (seen options frame.before) <;>
      simp [nodeAround, Function.comp_def]
  have notLost := notLost_of_frame frame (show Shape.tokensField ≠ "property" by decide)
  rcases nodeAround_cases notLost (gate options frame.kind)
      (entries? frame.kind true (seen options frame.before))
      (entries? frame.kind true (seen options frame.after)) with
    refuses | ⟨slot, injective, made⟩
  · refine .inl fun token kept => ?_
    rw [composed token kept]
    exact refuses _
  · refine .inr ⟨slot, injective, fun token kept => ?_⟩
    rw [composed token kept]
    exact made (.word token)

/-! ## Differences in a context -/

section Differences

variable {options : Options} {context : Context} {x y first second : Tree}
  {program : Shape.Node}

theorem outline?_of_same
    (same : first.unplaced = second.unplaced) :
    outline? options first = outline? options second := by
  rw [← outline?_unplaced options first, same, outline?_unplaced]

theorem outline?_of_lowerProgram
    (lowered : lowerProgram options first = .ok program) :
    outline? options first ≠ none := by
  obtain ⟨shape, shapeLowered, -⟩ := lower_of_lowerProgram lowered
  rw [outline?_eq_some_iff.mpr ⟨shape, shapeLowered, rfl⟩]
  exact Option.some_ne_none _

/-- What stands in the hole of a program that is lowered is not refused. -/
theorem outline?_of_filled
    (fits : Fits x) (same : first.unplaced = (context.fill x).unplaced)
    (lowered : lowerProgram options first = .ok program) :
    outline? options x ≠ none := by
  intro refused
  apply outline?_of_lowerProgram lowered
  rw [outline?_of_same same]
  cases carries_context options context with
  | refused refuses =>
      exact refuses x fits
  | carried slot injective passesFaults carries =>
      exact passesFaults x fits refused

/-- Two programs that differ in what stands in one hole are alike exactly when
that is alike. -/
theorem programs_alike_iff
    (fitsX : Fits x) (fitsY : Fits y)
    (sameFirst : first.unplaced = (context.fill x).unplaced)
    (sameSecond : second.unplaced = (context.fill y).unplaced)
    (lowered : lowerProgram options first = .ok program) {u v : Shape.Tree}
    (outlineX : outline? options x = some (some u))
    (outlineY : outline? options y = some (some v)) :
    ∃ other, lowerProgram options second = .ok other ∧
      (erase program.toTree = erase other.toTree ↔ u = v) := by
  cases carries_context options context with
  | refused refuses =>
      refine absurd ?_ (outline?_of_lowerProgram lowered)
      rw [outline?_of_same sameFirst]
      exact refuses x fitsX
  | carried slot injective passesFaults carries =>
      have filledX : outline? options first = some (some (slot u)) := by
        rw [outline?_of_same sameFirst]
        exact carries x u fitsX outlineX
      have filledY : outline? options second = some (some (slot v)) := by
        rw [outline?_of_same sameSecond]
        exact carries y v fitsY outlineY
      obtain ⟨made, madeLowered, madeOutline⟩ := lowerProgram_of_outline? filledX
      obtain ⟨other, otherLowered, otherOutline⟩ := lowerProgram_of_outline? filledY
      have sameProgram : made = program := by
        rw [lowered] at madeLowered
        exact (Except.ok.inj madeLowered).symm
      refine ⟨other, otherLowered, ?_⟩
      rw [← sameProgram, madeOutline, otherOutline]
      exact injective.eq_iff

theorem fits_of_lower
    {u : Shape.Node} (lowered : lower options x = .ok (some u))
    (noShorthand : x.kind?.any Kind.isShorthand = false) :
    Fits x where
  proper := isProper_of_lower lowered
  noShorthand := noShorthand

end Differences

/-- Context neither hides nor makes up a difference.  Two programs that are the
same, places apart, but for two trees in one hole are told apart exactly if the
shapes of the two trees are; and if one kept token stands for another anywhere
in a program, the programs are told apart.  In both cases the one program is
lowered if the other is. -/
theorem context_keeps_differences (options : Options) (context : Context) :
    (∀ (x y first second : Tree) (u v program : Shape.Node),
      x.kind?.any Kind.isShorthand = false → y.kind?.any Kind.isShorthand = false →
      lower options x = .ok (some u) → lower options y = .ok (some v) →
      first.unplaced = (context.fill x).unplaced →
      second.unplaced = (context.fill y).unplaced →
      lowerProgram options first = .ok program →
        ∃ other, lowerProgram options second = .ok other ∧
          program.differ other = u.differ v) ∧
    (∀ (frame : Frame) (token replacement : String) (first second : Tree)
        (program : Shape.Node),
      frame.kind.isWrapper = false → frame.kind ≠ .templateString →
      frame.kind.isArray = false →
      isKept frame.field token = true → isKept frame.field replacement = true →
      token ≠ replacement →
      first.unplaced = (context.fill (frame.fill (.token token))).unplaced →
      second.unplaced = (context.fill (frame.fill (.token replacement))).unplaced →
      lowerProgram options first = .ok program →
        ∃ other, lowerProgram options second = .ok other ∧ program.differ other = true) := by
  refine ⟨?_, ?_⟩
  · intro x y first second u v program noShorthandX noShorthandY loweredX loweredY sameFirst
      sameSecond lowered
    obtain ⟨other, otherLowered, alikeIff⟩ :=
      programs_alike_iff (fits_of_lower loweredX noShorthandX)
        (fits_of_lower loweredY noShorthandY) sameFirst sameSecond lowered
        (outline?_eq_some_iff.mpr ⟨some u, loweredX, rfl⟩)
        (outline?_eq_some_iff.mpr ⟨some v, loweredY, rfl⟩)
    exact ⟨other, otherLowered, Shape.differ_eq_differ alikeIff⟩
  · intro frame token replacement first second program noWrapper noTemplate noArray kept
      keptReplacement different sameFirst sameSecond lowered
    rcases carries_token options frame noWrapper noTemplate noArray with
      refuses | ⟨slot, injective, made⟩
    · exact absurd (refuses token kept)
        (outline?_of_filled (frame.fits_fill _) sameFirst lowered)
    · obtain ⟨other, otherLowered, alikeIff⟩ :=
        programs_alike_iff (frame.fits_fill _) (frame.fits_fill _) sameFirst sameSecond lowered
          (made token kept) (made replacement keptReplacement)
      refine ⟨other, otherLowered, ?_⟩
      have toldApart : program.differ other ≠ false := by
        intro alike
        have sameSlot := alikeIff.mp ((Shape.differ_eq_false_iff _ _).mp alike)
        have sameWord := injective sameSlot
        exact different (Shape.Tree.word.inj sameWord)
      simpa using toldApart

/-- The program of one statement around a hole. -/
def statementContext : Context :=
  .inside
    { kind := .program, place := ⟨1, 1⟩, before := [], field := none, after := []
      lowered := rfl, isFirst := nofun, noProperty := nofun }
    nofun
    (.inside
      { kind := .expressionStatement, place := ⟨1, 1⟩, before := [], field := none
        after := [(none, .token ";")], lowered := rfl, isFirst := nofun, noProperty := nofun }
      nofun .hole)

/-- The operation on `a` and `b` around its operator. -/
def operatorFrame : Frame where
  kind := .binaryExpression
  place := ⟨1, 1⟩
  before := [(some "left", .leaf .identifier ⟨1, 1⟩ "a")]
  field := some "operator"
  after := [(some "right", .leaf .identifier ⟨1, 5⟩ "b")]
  lowered := rfl
  isFirst := nofun
  noProperty := nofun

/-- In the program `…;`, the names `a` and `b` are not told apart, the operations
`a + b` and `a - b` are. -/
theorem statement_keeps_differences :
    (∃ program other,
      lowerProgram {} (statementContext.fill (.leaf .identifier ⟨1, 1⟩ "a")) = .ok program ∧
        lowerProgram {} (statementContext.fill (.leaf .identifier ⟨1, 1⟩ "b")) = .ok other ∧
          program.differ other = false) ∧
    ∃ program other,
      lowerProgram {} (statementContext.fill (operatorFrame.fill (.token "+"))) = .ok program ∧
        lowerProgram {} (statementContext.fill (operatorFrame.fill (.token "-"))) = .ok other ∧
          program.differ other = true := by
  obtain ⟨names, tokens⟩ := context_keeps_differences {} statementContext
  constructor
  · obtain ⟨program, lowered⟩ : ∃ program,
        lowerProgram {} (statementContext.fill (.leaf .identifier ⟨1, 1⟩ "a")) = .ok program :=
      ⟨_, rfl⟩
    obtain ⟨other, otherLowered, same⟩ := names (.leaf .identifier ⟨1, 1⟩ "a")
      (.leaf .identifier ⟨1, 1⟩ "b") _ _ _ _ program rfl rfl rfl rfl rfl rfl lowered
    exact ⟨program, other, lowered, otherLowered, same⟩
  · obtain ⟨program, lowered⟩ : ∃ program,
        lowerProgram {} (statementContext.fill (operatorFrame.fill (.token "+"))) =
          .ok program :=
      ⟨_, rfl⟩
    obtain ⟨other, otherLowered, different⟩ := tokens operatorFrame "+" "-" _ _ program rfl
      nofun rfl (by decide) (by decide) (by decide) rfl rfl lowered
    exact ⟨program, other, lowered, otherLowered, different⟩

end ShapeAudit.Source
