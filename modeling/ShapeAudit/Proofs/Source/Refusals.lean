import ShapeAudit.Proofs.Source.Faults
import ShapeAudit.Proofs.Source.Prefixed

/-!
# Refusals wherever they stand

Lowering looks at the places of a tree only to tell them in a fault.  So a tree
that stands behind a text is lowered to the same shape or refused for the same
reason, and the place that the fault tells is the one behind the text.  A string
statement at the beginning of a program is never refused itself, so to the faults
of the other statements it is no more than a text before them.
-/

namespace ShapeAudit.Source

open Shape (Fields)
open ShapeAudit.Source.Tree (behind childrenBehind)
open Reading

variable {lead : List Char}

/-! ## Lowering behind a text -/

/-- A fault of a source once a text stands before the source. -/
def Fault.behind (lead : List Char) : Fault → Fault
  | .malformed place explanation => .malformed (place.behind lead) explanation
  | .unsupported kind place => .unsupported kind (place.behind lead)
  | .moduleOnly place => .moduleOnly (place.behind lead)
  | .grammarUnavailable explanation => .grammarUnavailable explanation
  | .aborted => .aborted

theorem mapError_bind
    {α β : Type} (change : Fault → Fault) (first : Except Fault α) (next : α → Except Fault β) :
    (first >>= next).mapError change =
      first.mapError change >>= fun value => (next value).mapError change := by
  cases first with
  | error fault =>
      rfl
  | ok value =>
      rfl

section Lowering

variable (options : Options)

theorem shapeOf_behind (kind : Kind) (place : Place) :
    shapeOf options kind (place.behind lead) =
      (shapeOf options kind place).mapError (Fault.behind lead) := by
  unfold shapeOf
  split
  · rfl
  · split
    · rfl
    · split
      · rfl
      · rfl

/-- A node among children is passed over, stands for a shorthand property, or is
lowered. -/
theorem lowerChildren_node
    {tree : Tree} (isNode : tree.kind?.isSome = true) (parent : Kind) (awaiting : Bool)
    (field : Option String) (rest : List Child) (fields : Fields) :
    lowerChildren options parent awaiting ((field, tree) :: rest) fields =
      if tree.isExtra then lowerChildren options parent awaiting rest fields
      else if parent.isObject && tree.kind?.any Kind.isShorthand then
        lowerChildren options parent false rest
          (Fields.push (field.getD Shape.childrenField) (shorthandProperty tree.spelling).toTree
            fields)
      else
        lower options tree >>= fun shape =>
          match shape with
          | some node =>
            lowerChildren options parent false rest
              (Fields.push (field.getD Shape.childrenField) node.toTree fields)
          | none => lowerChildren options parent false rest fields := by
  apply lowerChildren.eq_4
  rintro spelling rfl
  cases isNode

section Children

variable {rest : List Child}
  (others : ∀ (parent : Kind) (awaiting : Bool) (fields : Fields),
    lowerChildren options parent awaiting (childrenBehind lead rest) fields =
      (lowerChildren options parent awaiting rest fields).mapError (Fault.behind lead))

include others

theorem lowerChildren_token_behind
    (parent : Kind) (awaiting : Bool) (field : Option String) (spelling : String)
    (fields : Fields) :
    lowerChildren options parent awaiting ((field, .token spelling) :: childrenBehind lead rest)
        fields =
      (lowerChildren options parent awaiting ((field, .token spelling) :: rest) fields).mapError
        (Fault.behind lead) := by
  cases childFate parent awaiting field (.token spelling) with
  | leaves still here noLine filled goesOn =>
      rw [goesOn, goesOn, others]
  | lowers goesOn =>
      rw [goesOn, goesOn]
      exact others _ _ _

theorem lowerChildren_node_behind
    {tree : Tree} (isNode : tree.kind?.isSome = true)
    (here : lower options (tree.behind lead) = (lower options tree).mapError (Fault.behind lead))
    (parent : Kind) (awaiting : Bool) (field : Option String) (fields : Fields) :
    lowerChildren options parent awaiting ((field, tree.behind lead) :: childrenBehind lead rest)
        fields =
      (lowerChildren options parent awaiting ((field, tree) :: rest) fields).mapError
        (Fault.behind lead) := by
  have isNodeBehind : (tree.behind lead).kind?.isSome = true := by
    rw [kind?_behind]
    exact isNode
  rw [lowerChildren_node options isNode, lowerChildren_node options isNodeBehind,
    isExtra_behind, kind?_behind, Tree.spelling_behind, here]
  simp only [others]
  split
  · rfl
  · split
    · rfl
    · rw [mapError_bind]
      congr 1
      funext shape
      cases shape with
      | none =>
          rfl
      | some node =>
          rfl

end Children

/-- What is no substitution is text of a template. -/
theorem lowerTemplate_text_behind
    {tree : Tree} {rest : List Child}
    (others : ∀ (text : String) (fields : Fields),
      lowerTemplate options text (childrenBehind lead rest) fields =
        (lowerTemplate options text rest fields).mapError (Fault.behind lead))
    (noSubstitution : ∀ place inner, tree = .branch .templateSubstitution place inner → False)
    (text : String) (field : Option String) (fields : Fields) :
    lowerTemplate options text ((field, tree.behind lead) :: childrenBehind lead rest) fields =
      (lowerTemplate options text ((field, tree) :: rest) fields).mapError
        (Fault.behind lead) := by
  by_cases isQuote : tree = .token "\x60"
  · subst isQuote
    rw [behind_token, lowerTemplate.eq_3, lowerTemplate.eq_3, others]
  · have noQuoteBehind (isQuote' : tree.behind lead = .token "\x60") : False := by
      cases tree with
      | token spelling =>
          exact isQuote isQuote'
      | leaf kind place spelling =>
          cases isQuote'
      | branch kind place children =>
          cases isQuote'
    have noSubstitutionBehind
        (place : Place) (inner : List Child)
        (isSubstitution : tree.behind lead = .branch .templateSubstitution place inner) :
        False := by
      cases tree with
      | token spelling =>
          cases isSubstitution
      | leaf kind place spelling =>
          cases isSubstitution
      | branch kind place children =>
          cases isSubstitution
          exact noSubstitution _ _ rfl
    rw [lowerTemplate.eq_4 _ _ _ _ _ _ noSubstitutionBehind noQuoteBehind,
      lowerTemplate.eq_4 _ _ _ _ _ _ noSubstitution isQuote, isExtra_behind,
      Tree.spelling_behind, others, others]
    split
    · rfl
    · rfl

mutual

theorem lower_behind :
    ∀ tree : Tree,
      lower options (tree.behind lead) = (lower options tree).mapError (Fault.behind lead)
  | .token _ => rfl
  | .leaf kind place spelling => by
      rw [behind, lower.eq_def, lower.eq_def options (.leaf kind place spelling)]
      dsimp only
      split
      · rfl
      · rfl
      · split
        · rfl
        · rfl
      · rfl
      · rfl
      · rfl
      · rfl
      · rw [shapeOf_behind, mapError_bind]
        congr 1
        funext shape
        split
        · rfl
        · split
          · rfl
          · rfl
  | .branch kind place children => by
      rw [behind, lower.eq_def, lower.eq_def options (.branch kind place children)]
      dsimp only
      split
      · rfl
      · rfl
      · split
        · rfl
        · rfl
      · exact lowerFirst_behind children
      · exact lowerFirst_behind children
      · rw [lowerTemplate_behind children, mapError_bind]
        rfl
      · rw [Tree.spellingOf_childrenBehind]
        rfl
      · rw [shapeOf_behind, mapError_bind]
        congr 1
        funext shape
        split
        · rw [Tree.spellingOf_childrenBehind]
          rfl
        · split
          · rfl
          · rw [lowerChildren_behind children, mapError_bind]
            rfl

theorem lowerFirst_behind :
    ∀ children : List (Option String × Tree),
      lowerFirst options (childrenBehind lead children) =
        (lowerFirst options children).mapError (Fault.behind lead)
  | [] => rfl
  | (field, child) :: rest => by
      rw [childrenBehind, lowerFirst, lowerFirst, isProper_behind]
      split
      · exact lower_behind child
      · exact lowerFirst_behind rest

theorem lowerChildren_behind :
    ∀ (children : List (Option String × Tree)) (parent : Kind) (awaiting : Bool) (fields : Fields),
      lowerChildren options parent awaiting (childrenBehind lead children) fields =
        (lowerChildren options parent awaiting children fields).mapError (Fault.behind lead)
  | [], _, _, _ => rfl
  | (field, child) :: rest, parent, awaiting, fields => by
      have here := lower_behind child
      have others := lowerChildren_behind rest
      rw [childrenBehind]
      cases child with
      | token spelling =>
          exact lowerChildren_token_behind options others parent awaiting field spelling fields
      | leaf kind place spelling =>
          exact lowerChildren_node_behind options others rfl here parent awaiting field fields
      | branch kind place children =>
          exact lowerChildren_node_behind options others rfl here parent awaiting field fields

theorem lowerTemplate_behind :
    ∀ (children : List (Option String × Tree)) (text : String) (fields : Fields),
      lowerTemplate options text (childrenBehind lead children) fields =
        (lowerTemplate options text children fields).mapError (Fault.behind lead)
  | [], _, _ => rfl
  | (field, .token spelling) :: rest, text, fields => by
      apply lowerTemplate_text_behind options (lowerTemplate_behind rest)
      rintro _ _ ⟨⟩
  | (field, .leaf kind place spelling) :: rest, text, fields => by
      apply lowerTemplate_text_behind options (lowerTemplate_behind rest)
      rintro _ _ ⟨⟩
  | (field, .branch kind place inner) :: rest, text, fields => by
      by_cases isSubstitution : kind = .templateSubstitution
      · subst isSubstitution
        rw [childrenBehind, behind, lowerTemplate_substitution, lowerTemplate_substitution,
          lowerFirst_behind inner, mapError_bind]
        simp only [lowerTemplate_behind rest]
      · apply lowerTemplate_text_behind options (lowerTemplate_behind rest)
        rintro _ _ ⟨⟩
        exact isSubstitution rfl

end

end Lowering

/-! ## Refusals behind a string statement -/

namespace Fault

/-- The place of what was refused for its kind. -/
def refusedAt? : Fault → Option Place
  | .unsupported _ place | .moduleOnly place => some place
  | .malformed _ _ | .grammarUnavailable _ | .aborted => none

theorem behind_eq_self_iff
    {fault : Fault} {place : Place} (refused : fault.refusedAt? = some place)
    (lead : List Char) :
    fault.behind lead = fault ↔ '\n' ∉ lead ∧ (place.line = 1 → lead = []) := by
  rw [← Place.behind_eq_self_iff]
  cases fault <;> cases refused <;> simp [behind]

/-- Texts with another number of lines move what is refused to other places. -/
theorem behind_ne_behind
    {fault : Fault} {lead : List Char} {place : Place}
    (refused : (fault.behind lead).refusedAt? = some place) (other : List Char)
    (otherLines : lead.count '\n' ≠ other.count '\n') :
    fault.behind lead ≠ fault.behind other := by
  cases fault with
  | unsupported kind own | moduleOnly own =>
      intro same
      simp only [behind, Place.behind, unsupported.injEq, moduleOnly.injEq, Place.mk.injEq]
        at same
      omega
  | malformed | grammarUnavailable | aborted =>
      cases refused

end Fault

section Children

variable {options : Options} {parent : Kind} {children : List Child}

/-- Only arrays care for awaited elements. -/
theorem lowerChildren_awaiting
    (noArray : parent.isArray = false) (awaiting other : Bool) (fields : Fields) :
    lowerChildren options parent awaiting children fields =
      lowerChildren options parent other children fields := by
  induction children generalizing awaiting other fields with
  | nil =>
      rfl
  | cons child rest inductionHypothesis =>
      obtain ⟨field, tree⟩ := child
      cases tree with
      | token spelling =>
          simp [lowerChildren, noArray, inductionHypothesis awaiting other]
      | leaf kind place spelling =>
          rw [lowerChildren_node options rfl, lowerChildren_node options rfl,
            inductionHypothesis awaiting other]
      | branch kind place inner =>
          rw [lowerChildren_node options rfl, lowerChildren_node options rfl,
            inductionHypothesis awaiting other]

/-- Which fault children have does not depend on what the fields hold already. -/
theorem lowerChildren_eq_error_iff
    (awaiting : Bool) (fields others : Fields) (fault : Fault) :
    lowerChildren options parent awaiting children fields = .error fault ↔
      lowerChildren options parent awaiting children others = .error fault := by
  induction children generalizing awaiting fields others with
  | nil =>
      simp [lowerChildren]
  | cons child rest inductionHypothesis =>
      obtain ⟨field, tree⟩ := child
      cases childFate parent awaiting field tree with
      | leaves still here noLine filled goesOn =>
          rw [goesOn, goesOn]
          exact inductionHypothesis still _ _
      | lowers goesOn =>
          rw [goesOn, goesOn, bind_eq_error_iff, bind_eq_error_iff]
          refine or_congr_right (exists_congr fun shape => and_congr_right fun _ => ?_)
          exact inductionHypothesis false _ _

theorem lowerChildren_comments
    {before : List Child} (onlyComments : ∀ child ∈ before, child.2.isExtra = true)
    (awaiting : Bool) (fields : Fields) :
    lowerChildren options parent awaiting (before ++ children) fields =
      lowerChildren options parent awaiting children fields := by
  induction before with
  | nil =>
      rfl
  | cons child before inductionHypothesis =>
      obtain ⟨field, tree⟩ := child
      have isComment : tree.isExtra = true := onlyComments _ List.mem_cons_self
      have isNode : tree.kind?.isSome = true := by
        obtain ⟨kind, isKind, -⟩ := Option.any_eq_true _ _ |>.mp isComment
        rw [isKind]
        rfl
      rw [List.cons_append, lowerChildren_node options isNode, if_pos isComment]
      exact inductionHypothesis fun other isOther =>
        onlyComments other (List.mem_cons_of_mem _ isOther)

/-- A string statement and comments before the children of a program have no
fault, and the fault of the children is theirs, in its place behind the lead. -/
theorem lowerChildren_behind_string_eq_error_iff
    {before : List Child} (onlyComments : ∀ child ∈ before, child.2.isExtra = true)
    (length : Nat) (cursor : Cursor) (fault : Fault) :
    lowerChildren options .program true
        ((none, Grammar.stringStatement length cursor) :: (before ++ childrenBehind lead children))
        [] = .error fault ↔
      ∃ own,
        lowerChildren options .program true children [] = .error own ∧ own.behind lead = fault := by
  have stringTaken :
      lowerChildren options .program true
          ((none, Grammar.stringStatement length cursor) ::
            (before ++ childrenBehind lead children)) [] =
        lowerChildren options .program false (before ++ childrenBehind lead children)
          (Fields.push Shape.childrenField (stringShape (cursor.spelling (length + 1))).toTree
            []) := by
    rw [lowerChildren_node options rfl, lower_stringStatement]
    rfl
  rw [stringTaken, lowerChildren_comments onlyComments,
    lowerChildren_awaiting rfl false true, lowerChildren_eq_error_iff true _ [],
    lowerChildren_behind]
  cases lowerChildren options .program true children [] with
  | error own =>
      simp [Except.mapError]
  | ok fields =>
      simp [Except.mapError]

end Children

/-! ## Sources behind a string statement -/

/-- Of a source behind a string statement and blanks nothing is refused but what
is refused of the source, and the fault is the same, in its place behind them. -/
theorem refused_behind_string
    {options : Options} {text longer : String} {length : Nat} {blanks : List Char}
    (atString : (Cursor.start (Text.trimChars longer.toList)).AtString length
      (blanks ++ Text.trimChars text.toList))
    (areBlank : ∀ c ∈ blanks, isSpace c = true) {fault : Fault} {place : Place}
    (refused : fault.refusedAt? = some place) (failed : parse options longer = .error fault) :
    ∃ lead own,
      Text.trimChars longer.toList = lead ++ Text.trimChars text.toList ∧
        parse options text = .error own ∧ own.behind lead = fault := by
  have noStop : ∀ stopped, readTree (Text.trimChars longer.toList) ≠ .error stopped := by
    intro stopped stops
    obtain ⟨_, _, malformed⟩ := parse_of_stopped stops options
    rw [malformed] at failed
    cases failed
    cases refused
  have noLine : opensWithHashBang (Text.trimChars text.toList) = false := by
    rw [← Bool.not_eq_true]
    intro line
    obtain ⟨stopped, stops⟩ := readTree_behind_string_stops atString areBlank line
    exact noStop stopped stops
  obtain ⟨lead, parted, ⟨_, children, before, sourceRead, longerRead, onlyComments⟩ |
      ⟨_, stopped, _, stops⟩⟩ := readTree_behind_string atString areBlank noLine
  · rw [parse_eq_error_iff longerRead] at failed
    obtain ⟨own, ownFailed, moved⟩ :=
      (lowerChildren_behind_string_eq_error_iff onlyComments length _ fault).mp failed
    exact ⟨lead, own, parted, (parse_eq_error_iff sourceRead options own).mpr ownFailed, moved⟩
  · exact absurd stops (noStop stopped)

end ShapeAudit.Source
