import Mathlib.Logic.Relation
import ShapeAudit.Proofs.Source.Outline

/-!
# Freedoms of writing

What a source may write in one way or another without a change of its shape:
where its nodes stand, comments, parentheses, shorthand entries, the parameter
of an arrow, empty arguments of `new`, members by name or by string, and
modifiers.  A freedom is taken at one node, anywhere in a tree and any number of
times, and two trees that are related in this way have shapes that are not told
apart.  If one of them is refused, so is the other.

Nothing is asked of the trees beyond what each rule names, and the rules may be
used inside literals and templates as well, where they leave no trace.  Only a
private identifier is read letter by letter, so its inside stays as it is.
-/

namespace ShapeAudit.Source

open Shape (Fields)
open Shape.Tree (erase anyLeaf)

/-! ## The rules -/

/-- How a member is linked to its object when it is named and when it is
looked up: by a dot and by nothing, or by an optional chain. -/
inductive Linked : List Child → List Child → Prop where
  | dot : Linked [(none, .token ".")] []
  | chain (tree : Tree) :
      Linked [(some "optional_chain", tree)] [(some "optional_chain", tree)]

/-- An expression in parentheses. -/
def parenthesized (place : Place) (tree : Tree) : Tree :=
  .branch .parenthesizedExpression place
    [(none, .token "("), (none, tree), (none, .token ")")]

/-- The kinds of a shorthand entry and of the pair that it shortens, in an object
and in an object pattern. -/
inductive Shortens : Kind → Kind → Kind → Prop where
  | entry : Shortens .object .shorthandPropertyIdentifier .pair
  | pattern : Shortens .objectPattern .shorthandPropertyIdentifierPattern .pairPattern

namespace Shortens

variable {parent entry full : Kind} (shortens : Shortens parent entry full)

include shortens

theorem isObject : parent.isObject = true := by
  cases shortens <;> rfl

theorem notPrivate : parent ≠ .privatePropertyIdentifier := by
  cases shortens <;> decide

end Shortens

/-- The pair `name: name`. -/
def pairOf (kind : Kind) (place keyPlace valuePlace : Place) (name : String) : Tree :=
  .branch kind place
    [(some "key", .leaf .propertyIdentifier keyPlace name), (none, .token ":"),
      (some "value", .leaf .identifier valuePlace name)]

/-- One freedom, taken at the root of a tree. -/
inductive Freedom : Tree → Tree → Prop where
  /-- Where the nodes stand. -/
  | placed {first second : Tree} (same : first.unplaced = second.unplaced) :
      Freedom first second
  /-- A comment. -/
  | comment {kind : Kind} (place : Place) (before after : List Child)
      (field : Option String) {extra : Tree}
      (notPrivate : kind ≠ .privatePropertyIdentifier) (isExtra : extra.isExtra = true) :
      Freedom (.branch kind place (before ++ after))
        (.branch kind place (before ++ (field, extra) :: after))
  /-- A modifier, which a `*` in the field of operators is not. -/
  | modifier {kind : Kind} (place : Place) (before after : List Child)
      {field : Option String} {token : String}
      (notPrivate : kind ≠ .privatePropertyIdentifier) (modifies : isModifier token = true)
      (noOperator : token = "*" → field ≠ some "operator") :
      Freedom (.branch kind place (before ++ after))
        (.branch kind place (before ++ (field, .token token) :: after))
  /-- Parentheses around a child that is no shorthand entry and no piece of a
  template. -/
  | parentheses {kind : Kind} (place innerPlace : Place) (before after : List Child)
      (field : Option String) {child : Tree}
      (notPrivate : kind ≠ .privatePropertyIdentifier) (noTemplate : kind ≠ .templateString)
      (proper : child.isProper = true)
      (noShorthand : child.kind?.any Kind.isShorthand = false) :
      Freedom (.branch kind place (before ++ (field, child) :: after))
        (.branch kind place (before ++ (field, parenthesized innerPlace child) :: after))
  /-- A shorthand entry. -/
  | property {parent entry full : Kind} (place entryPlace pairPlace keyPlace valuePlace : Place)
      (before after : List Child) (field : Option String) (name : String)
      (shortens : Shortens parent entry full) :
      Freedom (.branch parent place (before ++ (field, .leaf entry entryPlace name) :: after))
        (.branch parent place
          (before ++ (field, pairOf full pairPlace keyPlace valuePlace name) :: after))
  /-- An arrow with one bare parameter. -/
  | arrow (place listPlace : Place) (before after : List Child) {identifier : Tree}
      (isIdentifier : identifier.kind? = some .identifier)
      (noParameter : ∀ child ∈ before ++ after, child.1 ≠ some "parameter")
      (noParameters : ∀ child ∈ before ++ after, child.1 ≠ some "parameters") :
      Freedom
        (.branch .arrowFunction place (before ++ (some "parameter", identifier) :: after))
        (.branch .arrowFunction place
          (before ++ (some "parameters", .branch .formalParameters listPlace
            [(none, .token "("), (none, identifier), (none, .token ")")]) :: after))
  /-- A constructor without arguments. -/
  | construction (place listPlace : Place) (before after : List Child)
      (noArguments : ∀ child ∈ before ++ after, child.1 ≠ some "arguments") :
      Freedom (.branch .newExpression place (before ++ after))
        (.branch .newExpression place
          (before ++ (some "arguments", .branch .arguments listPlace
            [(none, .token "("), (none, .token ")")]) :: after))
  /-- A member by its name and by a string. -/
  | member (place : Place) {link chain : List Child} (object : Tree) {property index : Tree}
      (linked : Linked link chain)
      (isName : property.kind? = some .propertyIdentifier)
      (isString : index.kind? = some .string) :
      Freedom
        (.branch .memberExpression place
          ((some "object", object) :: link ++ [(some "property", property)]))
        (.branch .subscriptExpression place
          ((some "object", object) :: chain ++
            [(none, .token "["), (some "index", index), (none, .token "]")]))

/-- One freedom, taken somewhere in a tree. -/
inductive Rewritten : Tree → Tree → Prop where
  | root {first second : Tree} (freedom : Freedom first second) : Rewritten first second
  | inside {kind : Kind} (place : Place) (before after : List Child) (field : Option String)
      {first second : Tree} (notPrivate : kind ≠ .privatePropertyIdentifier)
      (rewritten : Rewritten first second) :
      Rewritten (.branch kind place (before ++ (field, first) :: after))
        (.branch kind place (before ++ (field, second) :: after))

/-! ## Children that stand for one another -/

/-- Children of which a node of a kind makes the same. -/
structure Interchangeable (kind : Kind) (these those : List Seen) : Prop where
  entries : ∀ awaiting, entries? kind awaiting these = entries? kind awaiting those
  first : kind.isObject = false → first? these = first? those
  pieces : kind = .templateString → pieces? these = pieces? those

namespace Interchangeable

variable {kind : Kind} {these those : List Seen}

theorem append
    (same : Interchangeable kind these those) (before : List Seen) :
    Interchangeable kind (before ++ these) (before ++ those) := by
  induction before with
  | nil =>
      exact same
  | cons child rest inductionHypothesis =>
      obtain ⟨field, seenAs⟩ := child
      refine ⟨?_, ?_, ?_⟩
      · intro awaiting
        simp only [List.cons_append, entries?]
        rw [inductionHypothesis.entries]
      · intro noObject
        cases seenAs with
        | token spelling =>
            exact inductionHypothesis.first noObject
        | comment =>
            exact inductionHypothesis.first noObject
        | node shorthand outline substituted =>
            rfl
      · intro template
        simp only [List.cons_append, pieces?]
        rw [inductionHypothesis.pieces template]

theorem compose_eq
    (same : Interchangeable kind these those) (options : Options) :
    compose options kind these = compose options kind those := by
  unfold compose
  split
  · rfl
  · rfl
  · rfl
  · exact same.first rfl
  · exact same.first rfl
  · rw [same.pieces rfl]
  · rw [same.entries]

theorem sight_eq
    {options : Options} {first second : List Child}
    (same : Interchangeable kind (seen options first) (seen options second))
    (notPrivate : kind ≠ .privatePropertyIdentifier) (place : Place) :
    sight options (.branch kind place first) = sight options (.branch kind place second) := by
  cases extra : kind.isExtra with
  | true =>
      simp [sight, Tree.isExtra, Tree.kind?, extra]
  | false =>
      rw [sight_branch options notPrivate extra, sight_branch options notPrivate extra,
        same.compose_eq]
      by_cases substitution : kind = .templateSubstitution
      · rw [same.first (by rw [substitution]; rfl)]
      · rw [if_neg substitution, if_neg substitution]

end Interchangeable

/-- A child that leaves nothing may be left out. -/
theorem interchangeable_silent
    {kind : Kind} {field : Option String} {silent : Sight} (rest : List Seen)
    (leavesNothing : ∀ awaiting, silent.entries? kind awaiting field = some [])
    (awaitsOn : ∀ awaiting, silent.awaits kind awaiting = awaiting)
    (noNode : (∃ spelling, silent = .token spelling) ∨ silent = .comment) :
    Interchangeable kind rest ((field, silent) :: rest) := by
  refine ⟨?_, ?_, ?_⟩
  · intro awaiting
    simp [entries?, leavesNothing, awaitsOn]
  · intro _
    rcases noNode with ⟨spelling, rfl⟩ | rfl <;> rfl
  · intro _
    rcases noNode with ⟨spelling, rfl⟩ | rfl <;> simp [pieces?, Sight.pieces?]

theorem interchangeable_comment
    (kind : Kind) (field : Option String) (rest : List Seen) :
    Interchangeable kind rest ((field, .comment) :: rest) :=
  interchangeable_silent rest (fun _ => rfl) (fun _ => rfl) (.inr rfl)

theorem interchangeable_modifier
    (kind : Kind) {field : Option String} {token : String} (rest : List Seen)
    (modifier : isModifier token = true)
    (noOperator : token = "*" → field ≠ some "operator") :
    Interchangeable kind rest ((field, .token token) :: rest) := by
  have noComma : token ≠ "," := by
    rintro rfl
    exact absurd modifier (by decide)
  have dropped : tokenEntries field token = [] := by
    cases field with
    | none =>
        simp [tokenEntries, isKeptKeyword, modifier]
    | some name =>
        by_cases star : token = "*"
        · simpa [tokenEntries, isFieldModifier, star] using noOperator star
        · simp [tokenEntries, isFieldModifier, star, modifier]
  refine interchangeable_silent rest ?_ ?_ (.inl ⟨token, rfl⟩)
  · intro awaiting
    simp [Sight.entries?, noComma, dropped]
  · intro awaiting
    simp [Sight.awaits, noComma]

theorem interchangeable_parentheses
    {kind : Kind} (noTemplate : kind ≠ .templateString) (field : Option String)
    (outline : Option (Option Shape.Tree)) (substituted : Option (Option (Option Shape.Tree)))
    (rest : List Seen) :
    Interchangeable kind ((field, .node false outline substituted) :: rest)
      ((field, .node false outline none) :: rest) where
  entries := by
    intro awaiting
    rfl
  first := by
    intro _
    rfl
  pieces := by
    intro template
    exact absurd template noTemplate

theorem interchangeable_property
    {kind : Kind} (isObject : kind.isObject = true) (field : Option String)
    (outline : Option (Option Shape.Tree)) (rest : List Seen) :
    Interchangeable kind ((field, .node true outline none) :: rest)
      ((field, .node false (some (some anyProperty)) none) :: rest) where
  entries := by
    intro awaiting
    simp [entries?, Sight.entries?, Sight.awaits, isObject]
  first := by
    intro noObject
    rw [isObject] at noObject
    cases noObject
  pieces := by
    rintro rfl
    cases isObject

/-! ## What is seen of the parts -/

section Parts

variable (options : Options)

theorem sight_parenthesized (place : Place) {child : Tree} (proper : child.isProper = true) :
    sight options (parenthesized place child) = .node false (outline? options child) none := by
  rw [parenthesized, sight_branch options (by decide) rfl, seen_cons, seen_cons,
    sight_of_isProper options proper]
  rfl

theorem sight_of_kind?
    {tree : Tree} {kind : Kind} (isKind : tree.kind? = some kind)
    (notPrivate : kind ≠ .privatePropertyIdentifier)
    (noSubstitution : kind ≠ .templateSubstitution) (notExtra : kind.isExtra = false) :
    sight options tree =
      .node kind.isShorthand (compose options kind (seen options tree.children)) none := by
  have proper : tree.isProper = true := by
    simp [Tree.isProper, Tree.isExtra, isKind, notExtra]
  have notSubstituted : substituted? options tree = none := by
    apply substituted?_of_ne
    rintro place children rfl
    cases isKind
    exact noSubstitution rfl
  rw [sight_of_isProper options proper, outline?_eq_compose options notPrivate isKind,
    notSubstituted, isKind]
  rfl

theorem sight_word
    {tree : Tree} {kind : Kind} (isKind : tree.kind? = some kind)
    (isWord : kind = .identifier ∨ kind = .propertyIdentifier ∨ kind = .string) :
    sight options tree = .node false (some (some anyLeaf)) none := by
  rcases isWord with rfl | rfl | rfl
  · exact sight_of_kind? options isKind (by decide) (by decide) rfl
  · exact sight_of_kind? options isKind (by decide) (by decide) rfl
  · exact sight_of_kind? options isKind (by decide) (by decide) rfl

theorem sight_pairOf
    {parent entry full : Kind} (shortens : Shortens parent entry full)
    (place keyPlace valuePlace : Place) (name : String) :
    sight options (pairOf full place keyPlace valuePlace name) =
      .node false (some (some anyProperty)) none := by
  have key : sight options (.leaf .propertyIdentifier keyPlace name) = _ :=
    sight_word options rfl (.inr (.inl rfl))
  have value : sight options (.leaf .identifier valuePlace name) = _ :=
    sight_word options rfl (.inl rfl)
  cases shortens with
  | entry =>
      rw [pairOf, sight_branch options (by decide) rfl]
      simp only [seen_cons, seen_nil, key, value]
      rfl
  | pattern =>
      rw [pairOf, sight_branch options (by decide) rfl]
      simp only [seen_cons, seen_nil, key, value]
      rfl

theorem sight_shorthand
    {parent entry full : Kind} (shortens : Shortens parent entry full)
    (place : Place) (name : String) :
    ∃ outline, sight options (.leaf entry place name) = .node true outline none := by
  have isEntry : (Tree.leaf entry place name).kind? = some entry := rfl
  cases shortens with
  | entry =>
      exact ⟨_, sight_of_kind? options isEntry (by decide) (by decide) rfl⟩
  | pattern =>
      exact ⟨_, sight_of_kind? options isEntry (by decide) (by decide) rfl⟩

theorem sight_singleParameter
    (place : Place) {identifier : Tree} (isIdentifier : identifier.kind? = some .identifier) :
    sight options (.branch .formalParameters place
        [(none, .token "("), (none, identifier), (none, .token ")")]) =
      .node false (some (some (parameterList [anyLeaf]))) none := by
  rw [sight_branch options (by decide) rfl]
  simp only [seen_cons, seen_nil, sight_word options isIdentifier (.inl rfl)]
  rfl

theorem sight_noArguments (place : Place) :
    sight options (.branch .arguments place [(none, .token "("), (none, .token ")")]) =
      .node false (some (some (Shape.Node.bare .arguments).toTree)) none := by
  rw [sight_branch options (by decide) rfl]
  rfl

end Parts

/-! ## Fields that stand for one another -/

theorem valuesIn_of_noField
    {kind : Kind} {awaiting : Bool} {children : List Seen} {entries : List Entry}
    (left : entries? kind awaiting children = some entries) {name : String}
    (noField : ∀ child ∈ children, child.1 ≠ some name)
    (named : name ≠ Shape.childrenField ∧ name ≠ Shape.tokensField) :
    valuesIn name entries = [] := by
  apply valuesIn_eq_nil
  rintro entry isEntry rfl
  rcases name_of_mem_entries? left isEntry with ⟨child, isChild, sameField⟩ | isChildren | isTokens
  · exact noField child isChild sameField
  · exact named.1 isChildren
  · exact named.2 isTokens

/-- A field that no child around a place is in has no values around it. -/
theorem valuesIn_around
    {kind : Kind} {awaitingBefore awaitingAfter : Bool} {before after : List Seen}
    {earlier later : List Entry}
    (leftBefore : entries? kind awaitingBefore before = some earlier)
    (leftAfter : entries? kind awaitingAfter after = some later) {name : String}
    (noField : ∀ child ∈ before ++ after, child.1 ≠ some name)
    (named : name ≠ Shape.childrenField ∧ name ≠ Shape.tokensField) :
    valuesIn name earlier = [] ∧ valuesIn name later = [] := by
  constructor
  · apply valuesIn_of_noField leftBefore _ named
    intro child isChild
    exact noField child (List.mem_append_left after isChild)
  · apply valuesIn_of_noField leftAfter _ named
    intro child isChild
    exact noField child (List.mem_append_right before isChild)

section Settled

variable {before after : List Entry}

theorem settle_arrow_bare
    (value : Shape.Tree)
    (noParameter : valuesIn "parameter" before = [] ∧ valuesIn "parameter" after = [])
    (noParameters : valuesIn "parameters" before = [] ∧ valuesIn "parameters" after = []) :
    settle .arrowFunction (pushAll (before ++ ("parameter", value) :: after) []) =
      settle .arrowFunction
        (pushAll (before ++ ("parameters", parameterList [value]) :: after) []) := by
  have ascending := fun entries => ascending_pushAll entries Fields.ascending_nil
  apply Fields.ext_find? (ascending_settle (ascending _) _) (ascending_settle (ascending _) _)
  intro name
  rw [find?_settle_arrow (ascending _), find?_settle_arrow (ascending _)]
  by_cases isParameter : name = "parameter"
  · subst isParameter
    simp [find?_pushAll_nil, noParameter, asField]
  · by_cases isParameters : name = "parameters"
    · subst isParameters
      simp [find?_pushAll_nil, noParameter, noParameters, asField, Fields.get_eq_find?]
    · simp [find?_pushAll_nil, noParameter, isParameter, isParameters, asField]

theorem settle_new_bare
    (noArguments : valuesIn "arguments" before = [] ∧ valuesIn "arguments" after = []) :
    settle .newExpression (pushAll (before ++ after) []) =
      settle .newExpression
        (pushAll (before ++ ("arguments", (Shape.Node.bare .arguments).toTree) :: after) []) := by
  have ascending := fun entries => ascending_pushAll entries Fields.ascending_nil
  apply Fields.ext_find? (ascending_settle (ascending _) _) (ascending_settle (ascending _) _)
  intro name
  rw [find?_settle_new (ascending _), find?_settle_new (ascending _)]
  by_cases isArguments : name = "arguments"
  · subst isArguments
    simp [find?_pushAll_nil, noArguments, asField]
  · simp [find?_pushAll_nil, isArguments]

theorem settle_subscript_index
    (value : Shape.Tree)
    (noIndex : valuesIn "index" before = []) (noProperty : valuesIn "property" before = []) :
    settle .subscriptExpression (pushAll (before ++ [("index", value)]) []) =
      pushAll (before ++ [("property", value)]) [] := by
  have ascending := fun entries => ascending_pushAll entries Fields.ascending_nil
  apply Fields.ext_find? (ascending_settle (ascending _) _) (ascending _)
  intro name
  rw [find?_settle_subscript (ascending _)]
  by_cases isIndex : name = "index"
  · subst isIndex
    simp [find?_pushAll_nil, noIndex, asField]
  · by_cases isProperty : name = "property"
    · subst isProperty
      simp [find?_pushAll_nil, noIndex, noProperty, asField]
    · simp [find?_pushAll_nil, isIndex, isProperty]

end Settled

section Composed

variable (options : Options) {before after : List Seen}

theorem compose_arrow_bare
    (value : Shape.Tree)
    (noParameter : ∀ child ∈ before ++ after, child.1 ≠ some "parameter")
    (noParameters : ∀ child ∈ before ++ after, child.1 ≠ some "parameters") :
    compose options .arrowFunction
        (before ++ (some "parameter", .node false (some (some value)) none) :: after) =
      compose options .arrowFunction
        (before ++ (some "parameters", .node false (some (some (parameterList [value]))) none) ::
          after) := by
  simp only [compose, entries?_around]
  cases leftBefore : entries? .arrowFunction true before with
  | none =>
      rfl
  | some earlier =>
      cases leftAfter : entries? .arrowFunction false after with
      | none =>
          rfl
      | some later =>
          have settled := settle_arrow_bare value
            (valuesIn_around leftBefore leftAfter noParameter (by decide))
            (valuesIn_around leftBefore leftAfter noParameters (by decide))
          simp [Sight.entries?, Kind.isObject, settled]

theorem compose_new_bare
    (noArguments : ∀ child ∈ before ++ after, child.1 ≠ some "arguments") :
    compose options .newExpression (before ++ after) =
      compose options .newExpression
        (before ++ (some "arguments",
          .node false (some (some (Shape.Node.bare .arguments).toTree)) none) :: after) := by
  have noArray : Kind.isArray .newExpression = false := rfl
  simp only [compose]
  rw [entries?_around, entries?_append, entries?_awaiting noArray after _ false]
  cases leftBefore : entries? .newExpression true before with
  | none =>
      rfl
  | some earlier =>
      cases leftAfter : entries? .newExpression false after with
      | none =>
          rfl
      | some later =>
          have settled := settle_new_bare
            (valuesIn_around leftBefore leftAfter noArguments (by decide))
          simp [Sight.entries?, Kind.isObject, settled]

/-- The link of a member leaves the same however the member is written. -/
theorem entries?_linked
    {link chain : List Child} (linked : Linked link chain) (object : Sight) :
    entries? .memberExpression true ((some "object", object) :: seen options link) =
      entries? .subscriptExpression true ((some "object", object) :: seen options chain) := by
  rw [entries?_kind (show Kind.isArray .memberExpression = Kind.isArray .subscriptExpression
    from rfl) rfl]
  cases linked with
  | dot =>
      have noDot : isKeptKeyword "." = false := by
        decide
      have noArray : Kind.isArray .subscriptExpression = false := by
        rfl
      simp [seen, sight, entries?, Sight.entries?, tokenEntries, noArray, noDot]
  | chain tree =>
      rfl

theorem fields_of_linked
    {link chain : List Child} (linked : Linked link chain) (object : Sight) {name : String}
    (other : name ≠ "object" ∧ name ≠ "optional_chain") :
    ∀ child ∈ (some "object", object) :: seen options chain, child.1 ≠ some name := by
  intro child isChild
  rcases List.mem_cons.mp isChild with rfl | inChain
  · simpa using Ne.symm other.1
  · cases linked with
    | dot =>
        cases inChain
    | chain tree =>
        rw [List.mem_singleton.mp inChain]
        simpa using Ne.symm other.2

theorem compose_member
    {link chain : List Child} (linked : Linked link chain) (object : Sight)
    (value : Shape.Tree) :
    compose options .memberExpression
        ((some "object", object) :: seen options link ++
          [(some "property", .node false (some (some value)) none)]) =
      compose options .subscriptExpression
        ((some "object", object) :: seen options chain ++
          [(none, .token "["), (some "index", .node false (some (some value)) none),
            (none, .token "]")]) := by
  have property : ∀ awaiting,
      entries? .memberExpression awaiting
        [(some "property", .node false (some (some value)) none)] =
          some [("property", value)] := by
    intro awaiting
    rfl
  have index : ∀ awaiting,
      entries? .subscriptExpression awaiting
        [(none, .token "["), (some "index", .node false (some (some value)) none),
          (none, .token "]")] = some [("index", value)] := by
    intro awaiting
    rfl
  simp only [compose]
  rw [entries?_append, entries?_append, entries?_linked options linked, property, index]
  cases left : entries? .subscriptExpression true
      ((some "object", object) :: seen options chain) with
  | none =>
      rfl
  | some entries =>
      have settled := settle_subscript_index value
        (valuesIn_of_noField left (fields_of_linked options linked object (by decide))
          (by decide))
        (valuesIn_of_noField left (fields_of_linked options linked object (by decide))
          (by decide))
      have unsettled :
          ∀ fields, settle .memberExpression fields = fields := by
        intro fields
        rfl
      have sameGate : gate options .memberExpression = gate options .subscriptExpression := by
        rfl
      simp [settled, unsettled, sameGate]

end Composed

/-! ## A freedom leaves no trace -/

section Traces

variable (options : Options)

theorem fields_seen
    {children : List Child} {name : String} (noField : ∀ child ∈ children, child.1 ≠ some name) :
    ∀ child ∈ seen options children, child.1 ≠ some name := by
  intro child isChild
  obtain ⟨original, isOriginal, rfl⟩ := List.mem_map.mp isChild
  exact noField original isOriginal

/-- A freedom that is taken at the root of a tree is not seen from above. -/
theorem sight_of_freedom {first second : Tree} (freedom : Freedom first second) :
    sight options first = sight options second := by
  cases freedom with
  | placed same =>
      rw [← sight_unplaced options first, same, sight_unplaced]
  | comment place before after field notPrivate isExtra =>
      apply Interchangeable.sight_eq _ notPrivate
      rw [seen_append, seen_append, seen_cons, sight_of_isExtra options isExtra]
      exact (interchangeable_comment _ field _).append _
  | modifier place before after notPrivate modifies noOperator =>
      apply Interchangeable.sight_eq _ notPrivate
      rw [seen_append, seen_append, seen_cons]
      exact (interchangeable_modifier _ _ modifies noOperator).append _
  | parentheses place innerPlace before after field notPrivate noTemplate proper noShorthand =>
      apply Interchangeable.sight_eq _ notPrivate
      rw [seen_append, seen_append, seen_cons, seen_cons,
        sight_parenthesized options innerPlace proper, sight_of_isProper options proper,
        noShorthand]
      exact (interchangeable_parentheses noTemplate field _ _ _).append _
  | property place entryPlace pairPlace keyPlace valuePlace before after field name shortens =>
      obtain ⟨outline, entrySeen⟩ := sight_shorthand options shortens entryPlace name
      apply Interchangeable.sight_eq _ shortens.notPrivate
      rw [seen_append, seen_append, seen_cons, seen_cons, entrySeen,
        sight_pairOf options shortens]
      exact (interchangeable_property shortens.isObject field outline _).append _
  | arrow place listPlace before after isIdentifier noParameter noParameters =>
      rw [sight_branch options (by decide) rfl, sight_branch options (by decide) rfl]
      simp only [seen_append, seen_cons, sight_singleParameter options listPlace isIdentifier,
        sight_word options isIdentifier (.inl rfl)]
      rw [compose_arrow_bare]
      · rfl
      · rw [← seen_append]
        exact fields_seen options noParameter
      · rw [← seen_append]
        exact fields_seen options noParameters
  | construction place listPlace before after noArguments =>
      rw [sight_branch options (by decide) rfl, sight_branch options (by decide) rfl]
      simp only [seen_append, seen_cons, sight_noArguments options listPlace]
      rw [compose_new_bare]
      · rfl
      · rw [← seen_append]
        exact fields_seen options noArguments
  | member place object linked isName isString =>
      rw [sight_branch options (by decide) rfl, sight_branch options (by decide) rfl]
      simp only [List.cons_append, seen_append, seen_cons, seen_nil,
        sight_word options isName (.inr (.inl rfl)),
        sight_word options isString (.inr (.inr rfl))]
      rw [← List.cons_append, compose_member options linked]
      rfl

/-- A freedom that is taken somewhere in a tree is not seen from above. -/
theorem sight_of_rewritten {first second : Tree} (rewritten : Rewritten first second) :
    sight options first = sight options second := by
  induction rewritten with
  | root freedom =>
      exact sight_of_freedom options freedom
  | inside place before after field notPrivate rewritten inductionHypothesis =>
      apply Interchangeable.sight_eq _ notPrivate
      rw [seen_append, seen_append, seen_cons, seen_cons, inductionHypothesis]
      exact ⟨fun _ => rfl, fun _ => rfl, fun _ => rfl⟩

/-- Nor are any number of them. -/
theorem sight_of_related
    {first second : Tree} (related : Relation.EqvGen Rewritten first second) :
    sight options first = sight options second := by
  induction related with
  | rel first second rewritten =>
      exact sight_of_rewritten options rewritten
  | refl tree =>
      rfl
  | symm first second _ inductionHypothesis =>
      exact inductionHypothesis.symm
  | trans first middle second _ _ firstHypothesis secondHypothesis =>
      exact firstHypothesis.trans secondHypothesis

end Traces

/-! ## Shapes of related trees -/

theorem lower_of_related
    {options : Options} {first second : Tree}
    (related : Relation.EqvGen Rewritten first second) {shape : Option Shape.Node}
    (lowered : lower options first = .ok shape) :
    ∃ other, lower options second = .ok other ∧
      (other.map fun node => erase node.toTree) = shape.map fun node => erase node.toTree := by
  apply outline?_eq_some_iff.mp
  rw [outline?_eq_sight, ← sight_of_related options related, ← outline?_eq_sight]
  exact outline?_eq_some_iff.mpr ⟨shape, lowered, rfl⟩

/-- Whatever freedoms two trees take, at any depth and any number of times: if
the one is lowered, so is the other, and their shapes are not told apart. -/
theorem freedoms_leave_shapes_alike
    (options : Options) {first second : Tree}
    (related : Relation.EqvGen Rewritten first second) :
    (∀ shape, lower options first = .ok (some shape) →
      ∃ other, lower options second = .ok (some other) ∧ shape.differ other = false) ∧
    (lower options first = .ok none → lower options second = .ok none) ∧
    (∀ program, lowerProgram options first = .ok program →
      ∃ other, lowerProgram options second = .ok other ∧ program.differ other = false) := by
  refine ⟨?_, ?_, ?_⟩
  · intro shape lowered
    obtain ⟨other, otherLowered, alike⟩ := lower_of_related related lowered
    cases other with
    | none =>
        cases alike
    | some node =>
        refine ⟨node, otherLowered, ?_⟩
        exact (Shape.differ_eq_false_iff _ _).mpr (Option.some.inj alike).symm
  · intro lowered
    obtain ⟨other, otherLowered, alike⟩ := lower_of_related related lowered
    cases other with
    | none =>
        exact otherLowered
    | some node =>
        cases alike
  · intro program lowered
    obtain ⟨shape, shapeLowered, rfl⟩ := lower_of_lowerProgram lowered
    obtain ⟨other, otherLowered, alike⟩ := lower_of_related related shapeLowered
    refine ⟨_, lowerProgram_of_lower otherLowered, ?_⟩
    apply (Shape.differ_eq_false_iff _ _).mpr
    have alikePrograms :=
      congrArg (fun outline => outline.getD (erase (Shape.Node.bare .program).toTree)) alike
    simpa [Option.getD_map] using alikePrograms.symm

/-- The member `o.p`. -/
def memberByName (place : Place) : Tree :=
  .branch .memberExpression place
    [(some "object", .leaf .identifier place "o"), (none, .token "."),
      (some "property", .leaf .propertyIdentifier place "p")]

/-- The member `o["p"]`. -/
def memberByString (place : Place) : Tree :=
  .branch .subscriptExpression place
    [(some "object", .leaf .identifier place "o"), (none, .token "["),
      (some "index", .leaf .string place "\"p\""), (none, .token "]")]

/-- The parameters `(x)`. -/
def oneParameter (place : Place) : Tree :=
  .branch .formalParameters place
    [(none, .token "("), (none, .leaf .identifier place "x"), (none, .token ")")]

/-- The function `x => o.p`. -/
def plainArrow : Tree :=
  .branch .arrowFunction ⟨1, 1⟩
    [(some "parameter", .leaf .identifier ⟨1, 1⟩ "x"), (none, .token "=>"),
      (some "body", memberByName ⟨1, 6⟩)]

/-- The function `async (x) => o["p"]`. -/
def dressedArrow : Tree :=
  .branch .arrowFunction ⟨1, 1⟩
    [(none, .token "async"), (some "parameters", oneParameter ⟨1, 7⟩), (none, .token "=>"),
      (some "body", memberByString ⟨1, 14⟩)]

theorem members_related (place : Place) :
    Rewritten (memberByName place) (memberByString place) :=
  .root (.member place (.leaf .identifier place "o") .dot rfl rfl)

theorem arrows_related :
    Relation.EqvGen Rewritten plainArrow dressedArrow := by
  have lookedUp :
      Rewritten plainArrow (.branch .arrowFunction ⟨1, 1⟩
        [(some "parameter", .leaf .identifier ⟨1, 1⟩ "x"), (none, .token "=>"),
          (some "body", memberByString ⟨1, 6⟩)]) :=
    .inside _ [(some "parameter", .leaf .identifier ⟨1, 1⟩ "x"), (none, .token "=>")] []
      (some "body") (by decide) (members_related ⟨1, 6⟩)
  have listed :
      Rewritten _ (.branch .arrowFunction ⟨1, 1⟩
        [(some "parameters", oneParameter ⟨1, 1⟩), (none, .token "=>"),
          (some "body", memberByString ⟨1, 6⟩)]) :=
    .root (.arrow ⟨1, 1⟩ ⟨1, 1⟩ []
      [(none, .token "=>"), (some "body", memberByString ⟨1, 6⟩)] rfl (by simp) (by simp))
  have modified :
      Rewritten _ (.branch .arrowFunction ⟨1, 1⟩
        [(none, .token "async"), (some "parameters", oneParameter ⟨1, 1⟩), (none, .token "=>"),
          (some "body", memberByString ⟨1, 6⟩)]) :=
    .root (.modifier ⟨1, 1⟩ []
      [(some "parameters", oneParameter ⟨1, 1⟩), (none, .token "=>"),
        (some "body", memberByString ⟨1, 6⟩)] (by decide) (by decide) (by simp))
  exact .trans _ _ _ (.rel _ _ lookedUp) (.trans _ _ _ (.rel _ _ listed)
    (.trans _ _ _ (.rel _ _ modified) (.rel _ _ (.root (.placed rfl)))))

theorem freedoms_leave_arrows_alike :
    Relation.EqvGen Rewritten plainArrow dressedArrow ∧
      ∃ plain dressed,
        lower {} plainArrow = .ok (some plain) ∧ lower {} dressedArrow = .ok (some dressed) ∧
          plain.differ dressed = false := by
  obtain ⟨plain, lowered⟩ : ∃ plain, lower {} plainArrow = .ok (some plain) :=
    ⟨_, rfl⟩
  obtain ⟨dressed, otherLowered, alike⟩ :=
    (freedoms_leave_shapes_alike {} arrows_related).1 plain lowered
  exact ⟨arrows_related, plain, dressed, lowered, otherLowered, alike⟩

end ShapeAudit.Source
