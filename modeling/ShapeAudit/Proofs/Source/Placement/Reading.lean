import ShapeAudit.Proofs.Source.Placement.Behind
import ShapeAudit.Proofs.Source.Placement.Ending

/-!
# Reading a text wherever it stands

What a reading gives depends on the text behind the cursor, on what is known of
the next token and on the comments that have been passed, but not on the tokens
that have been taken, and on places only in that it hands them on.  Two readings
match if they give the same at any two cursors of which one stands in a source
and the other one at the same text behind a lead; the places that they give are
then those behind the lead.  Every way to build readings keeps them matching.
-/

namespace ShapeAudit.Source

open ShapeAudit.Source.Tree (behind childrenBehind)

variable {lead : List Char}

/-! ## Cursors behind a text -/

namespace Cursor

/-- The second cursor stands at the same text as the first, in a source that has
a lead before it, and the same is known of what follows.  Which tokens have been
taken does not matter. -/
structure Behind (lead : List Char) (cursor other : Cursor) : Prop where
  rest : cursor.rest = other.rest
  place : cursor.place.behind lead = other.place
  passed : cursor.passed.map (behind lead) = other.passed
  mark : cursor.mark = other.mark
  placed : 1 ≤ cursor.place.line

namespace Behind

variable {cursor other : Cursor} (stands : cursor.Behind lead other)

include stands

theorem withMark (mark : Mark) :
    ({ cursor with mark := mark } : Cursor).Behind lead { other with mark := mark } where
  rest := stands.rest
  place := stands.place
  passed := stands.passed
  mark := rfl
  placed := stands.placed

theorem withoutPassed :
    ({ cursor with passed := [] } : Cursor).Behind lead { other with passed := [] } where
  rest := stands.rest
  place := stands.place
  passed := rfl
  mark := stands.mark
  placed := stands.placed

theorem advance (count : Nat) : (cursor.advance count).Behind lead (other.advance count) := by
  induction count generalizing cursor other with
  | zero =>
      exact stands.withMark .unseen
  | succ count inductionHypothesis =>
      obtain ⟨rest, place, passed, mark, taken⟩ := cursor
      obtain ⟨_, _, _, _, otherTaken⟩ := other
      obtain ⟨rfl, rfl, rfl, rfl, placed⟩ := stands
      cases rest with
      | nil =>
          exact ⟨rfl, rfl, rfl, rfl, placed⟩
      | cons c rest =>
          exact inductionHypothesis
            ⟨rfl, (placeAfter_behind placed lead c).symm, rfl, rfl, line_placeAfter placed c⟩

theorem advanceTo (rest : List Char) :
    (cursor.advanceTo rest).Behind lead (other.advanceTo rest) := by
  rw [Cursor.advanceTo, Cursor.advanceTo, stands.rest]
  exact stands.advance _

theorem spelling (length : Nat) : cursor.spelling length = other.spelling length := by
  rw [Cursor.spelling, Cursor.spelling, stands.rest]

theorem take (length : Nat) : (cursor.take length).Behind lead (other.take length) := by
  obtain ⟨rest, place, passed, mark, placed⟩ := stands.advance length
  exact ⟨rest, place, passed, mark, placed⟩

theorem passComment (kind : Kind) (length : Nat) :
    (cursor.passComment kind length).Behind lead (other.passComment kind length) := by
  obtain ⟨rest, place, _, mark, placed⟩ := stands.advance length
  refine ⟨rest, place, ?_, mark, placed⟩
  simp [Cursor.passComment, behind, stands.place, stands.passed, stands.spelling]

end Behind

end Cursor

section LookingAhead

variable {cursor other : Cursor} (stands : cursor.Behind lead other)

include stands

theorem behind_questionAt (chars : List Char) :
    Option.Rel (Cursor.Behind lead)
      ((questionAt chars).map fun rest => { cursor.advanceTo rest with mark := .question })
      ((questionAt chars).map fun rest => { other.advanceTo rest with mark := .question }) := by
  cases questionAt chars with
  | none =>
      exact .none
  | some rest =>
      exact .some ((stands.advanceTo rest).withMark .question)

/-- What is known of what follows is decided at both cursors or at neither. -/
theorem behind_decideMark (mode : Mode) :
    Option.Rel (Cursor.Behind lead) (decideMark mode cursor) (decideMark mode other) := by
  simp only [decideMark, stands.rest]
  split
  · split
    · exact .some ⟨rfl, stands.place, stands.passed, rfl, stands.placed⟩
    · split
      · exact behind_questionAt stands _
      · exact .none
  · split
    · exact behind_questionAt stands _
    · exact .none

theorem behind_lookFrom (mode : Mode) (fuel : Nat) :
    (lookFrom mode fuel cursor).Behind lead (lookFrom mode fuel other) := by
  induction fuel generalizing cursor other with
  | zero =>
      exact stands.withMark .token
  | succ fuel inductionHypothesis =>
      have decision := behind_decideMark stands mode
      have moved := stands.advance (gapLength mode other.rest)
      rw [lookFrom, lookFrom]
      generalize decideMark mode cursor = decided at decision
      generalize decideMark mode other = otherDecided at decision
      cases decision with
      | some decidedStands =>
          exact decidedStands
      | none =>
          simp only [stands.rest, moved.rest]
          split
          · exact inductionHypothesis ((stands.advance _).passComment _ _)
          · split
            · exact ⟨rfl, moved.place, moved.passed, rfl, moved.placed⟩
            · exact inductionHypothesis (moved.passComment _ _)

theorem behind_look (mode : Mode) : (look mode cursor).Behind lead (look mode other) := by
  rw [look, look, stands.mark, stands.rest]
  split
  · exact behind_lookFrom stands mode _
  · exact stands

end LookingAhead

/-! ## Readings that match -/

namespace Reading

variable {α β γ δ : Type}

/-- The outcomes of two readings correspond: results that are related, and
cursors behind them of which the second stands behind the lead; or stops before
the same text. -/
inductive Outcome (lead : List Char) (related : α → β → Prop) :
    Except Stop (α × Cursor) → Except Stop (β × Cursor) → Prop where
  | read {value : α} {other : β} {later otherLater : Cursor} :
      related value other →
      later.Behind lead otherLater →
      Outcome lead related (.ok (value, later)) (.ok (other, otherLater))
  | stopped {stopped otherStopped : Stop} :
      stopped.rest = otherStopped.rest →
      Outcome lead related (.error stopped) (.error otherStopped)

/-- Two readings correspond if their outcomes do at any two cursors of which the
second stands behind the lead. -/
def Corresponds (lead : List Char) (related : α → β → Prop)
    (first : Reading α) (second : Reading β) : Prop :=
  ∀ cursor other : Cursor, cursor.Behind lead other →
    Outcome lead related (first cursor) (second other)

/-- Two readings match if the second gives what the first gives, in the view of
the longer source. -/
abbrev Matches (lead : List Char) (view : α → β) (first : Reading α) (second : Reading β) :
    Prop :=
  Corresponds lead (fun value other => view value = other) first second

/-- A reading of children that gives the same ones behind any lead, in their
places there. -/
abbrev Steady (lead : List Char) (reading : Reading (List Child)) : Prop :=
  Matches lead (childrenBehind lead) reading reading

/-- Outcomes that correspond are both results or both stops. -/
theorem outcome_cases
    {related : α → β → Prop} {result : Except Stop (α × Cursor)}
    {other : Except Stop (β × Cursor)} (corresponds : Outcome lead related result other) :
    (∃ value later otherValue otherLater,
      result = .ok (value, later) ∧ other = .ok (otherValue, otherLater) ∧
        related value otherValue ∧ later.Behind lead otherLater) ∨
    (∃ stopped otherStopped,
      result = .error stopped ∧ other = .error otherStopped ∧
        stopped.rest = otherStopped.rest) := by
  cases corresponds with
  | read isRelated stands =>
      exact .inl ⟨_, _, _, _, rfl, rfl, isRelated, stands⟩
  | stopped sameRest =>
      exact .inr ⟨_, _, rfl, rfl, sameRest⟩

namespace Corresponds

variable {related : α → β → Prop} {nextRelated : γ → δ → Prop}

theorem pure {value : α} {other : β} (isRelated : related value other) :
    Corresponds lead related (Pure.pure value) (Pure.pure other) := by
  intro cursor another stands
  exact .read isRelated stands

theorem bind
    {first : Reading α} {second : Reading β} {next : α → Reading γ} {following : β → Reading δ}
    (firsts : Corresponds lead related first second)
    (nexts : ∀ value other, related value other →
      Corresponds lead nextRelated (next value) (following other)) :
    Corresponds lead nextRelated (first >>= next) (second >>= following) := by
  intro cursor other stands
  rw [bind_apply, bind_apply]
  rcases outcome_cases (firsts cursor other stands) with
    ⟨value, later, otherValue, otherLater, firstRead, secondRead, isRelated, laterStands⟩ |
      ⟨stopped, otherStopped, firstRead, secondRead, sameRest⟩
  · rw [firstRead, secondRead]
    exact nexts value otherValue isRelated later otherLater laterStands
  · rw [firstRead, secondRead]
    exact .stopped sameRest

/-- What follows a result without places may depend on it in any way. -/
theorem andThen
    {first second : Reading α} {next : α → Reading γ} {following : α → Reading δ}
    (firsts : Matches lead id first second)
    (nexts : ∀ value, Corresponds lead nextRelated (next value) (following value)) :
    Corresponds lead nextRelated (first >>= next) (second >>= following) := by
  refine bind firsts ?_
  rintro value other rfl
  exact nexts value

theorem ite
    {condition : Prop} [Decidable condition] {first second : Reading α}
    {third fourth : Reading β}
    (thens : Corresponds lead related first third)
    (elses : Corresponds lead related second fourth) :
    Corresponds lead related (if condition then first else second)
      (if condition then third else fourth) := by
  split
  · exact thens
  · exact elses

/-- Two ways to begin that go on alike. -/
theorem eitherThen
    {condition : Prop} [Decidable condition] {first second : Reading α}
    {third fourth : Reading β} {next : α → Reading γ} {following : β → Reading δ}
    (thens : Corresponds lead related first third)
    (elses : Corresponds lead related second fourth)
    (nexts : ∀ value other, related value other →
      Corresponds lead nextRelated (next value) (following other)) :
    Corresponds lead nextRelated (if condition then first >>= next else second >>= next)
      (if condition then third >>= following else fourth >>= following) :=
  ite (bind thens nexts) (bind elses nexts)

/-- What is known of the first of two results alone. -/
theorem and
    {holds : α → Prop} {first : Reading α} {second : Reading β}
    (corresponds : Corresponds lead related first second) (yields : Yields holds first) :
    Corresponds lead (fun value other => related value other ∧ holds value) first second := by
  intro cursor other stands
  rcases outcome_cases (corresponds cursor other stands) with
    ⟨value, later, otherValue, otherLater, firstRead, secondRead, isRelated, laterStands⟩ |
      ⟨stopped, otherStopped, firstRead, secondRead, sameRest⟩
  · rw [firstRead, secondRead]
    exact .read ⟨isRelated, yields cursor value later firstRead⟩ laterStands
  · rw [firstRead, secondRead]
    exact .stopped sameRest

theorem fail {first second : Stop} (sameRest : first.rest = second.rest) :
    Corresponds lead related (fun _ => .error first) (fun _ => .error second) := by
  intro cursor other stands
  exact .stopped sameRest

/-- A reading that takes the length of the text that is left as a bound. -/
theorem bounded
    {first : Nat → Reading α} {second : Nat → Reading β}
    (everywhere : ∀ bound, Corresponds lead related (first bound) (second bound)) :
    Corresponds lead related (fun cursor => first (cursor.rest.length + 1) cursor)
      (fun cursor => second (cursor.rest.length + 1) cursor) := by
  intro cursor other stands
  simp only [stands.rest]
  exact everywhere _ cursor other stands

end Corresponds

/-! ## The cursor -/

theorem stop_matches (related : α → β → Prop) (wanted : Wanted) :
    Corresponds lead related (stop wanted) (stop wanted) := by
  intro cursor other stands
  exact .stopped stands.rest

theorem cursor_matches : Corresponds lead (Cursor.Behind lead) cursor cursor := by
  intro position other stands
  exact .read stands stands

theorem peek_matches (mode : Mode) : Matches lead id (peek mode) (peek mode) := by
  intro cursor other stands
  have looked := behind_look stands mode
  exact .read looked.mark looked

theorem ahead_matches : Matches lead id ahead ahead := by
  intro cursor other stands
  have looked := behind_look stands .free
  refine .read ?_ looked
  rw [looked.mark, looked.rest, id]

theorem here_matches : Matches lead id here here := by
  intro cursor other stands
  refine .read ?_ stands
  rw [stands.mark, stands.rest, id]

theorem childrenBehind_eq_map (children : List Child) :
    childrenBehind lead children = children.map (Prod.map id (behind lead)) := by
  induction children with
  | nil =>
      rfl
  | cons child rest inductionHypothesis =>
      simp [childrenBehind, inductionHypothesis, Prod.map]

@[simp]
theorem childrenBehind_append (first second : List Child) :
    childrenBehind lead (first ++ second) =
      childrenBehind lead first ++ childrenBehind lead second := by
  simp [childrenBehind_eq_map]

theorem childrenBehind_comments (passed : List Tree) :
    childrenBehind lead (passed.reverse.map fun tree => (none, tree)) =
      (passed.map (behind lead)).reverse.map fun tree => (none, tree) := by
  simp [childrenBehind_eq_map, Function.comp_def]

theorem comments_matches : Steady lead comments := by
  intro cursor other stands
  refine .read ?_ stands.withoutPassed
  rw [childrenBehind_comments, stands.passed]

theorem consumeMark_matches : Matches lead id consumeMark consumeMark := by
  intro cursor other stands
  exact .read rfl (stands.withMark .unseen)

theorem place_matches : Matches lead (Place.behind lead) place place := by
  intro cursor other stands
  have looked := behind_look stands .free
  exact .read looked.place looked

/-! ## Tokens -/

theorem takeToken_steady (length : Nat) : Steady lead (takeToken length) := by
  refine .bind comments_matches fun before others sameBefore => ?_
  intro cursor other stands
  refine .read ?_ (stands.take length)
  simp [sameBefore, stands.spelling, childrenBehind, behind]

theorem takeLeaf_steady (kind : Kind) (length : Nat) : Steady lead (takeLeaf kind length) := by
  refine .bind comments_matches fun before others sameBefore => ?_
  intro cursor other stands
  refine .read ?_ (stands.take length)
  simp [sameBefore, stands.spelling, stands.place, childrenBehind, behind]

theorem isNext_matches (spelling : String) :
    Matches lead id (isNext spelling) (isNext spelling) :=
  .andThen ahead_matches fun _ => .pure rfl

theorem isHere_matches (spelling : String) :
    Matches lead id (isHere spelling) (isHere spelling) :=
  .andThen here_matches fun _ => .pure rfl

theorem passBreaks_matches : Matches lead id passBreaks passBreaks := by
  intro cursor other stands
  have looked := behind_look (stands.withMark .unseen) .inner
  rw [passBreaks, passBreaks, stands.mark, stands.rest]
  split
  · simp only [stands.rest] at looked
    exact .read rfl looked
  · exact .read rfl stands

theorem token_steady (spelling : String) : Steady lead (token spelling) :=
  .andThen ahead_matches fun _ => .andThen passBreaks_matches fun _ =>
    .andThen (isHere_matches spelling) fun _ =>
      .ite (takeToken_steady _) (stop_matches _ _)

theorem nextWord_matches : Matches lead id nextWord nextWord :=
  .andThen ahead_matches fun _ => .pure rfl

theorem isWord_matches (spelling : String) :
    Matches lead id (isWord spelling) (isWord spelling) :=
  .andThen nextWord_matches fun _ => .pure rfl

theorem word_steady (kind : Kind) : Steady lead (word kind) := by
  refine .andThen ahead_matches fun chars => ?_
  split
  · exact stop_matches _ _
  · exact takeLeaf_steady _ _

/-! ## Constructs -/

@[simp]
theorem kind?_behind (tree : Tree) : (tree.behind lead).kind? = tree.kind? := by
  cases tree <;> rfl

@[simp]
theorem isExtra_behind (tree : Tree) : (tree.behind lead).isExtra = tree.isExtra := by
  rw [Tree.isExtra, Tree.isExtra, kind?_behind]

@[simp]
theorem childrenBehind_inField (name : String) (children : List Child) :
    childrenBehind lead (inField name children) = inField name (childrenBehind lead children) := by
  induction children with
  | nil =>
      rfl
  | cons child rest inductionHypothesis =>
      obtain ⟨label, tree⟩ := child
      simp only [inField, List.map_cons] at inductionHypothesis ⊢
      rw [childrenBehind.eq_def, childrenBehind, List.map_cons, ← inductionHypothesis]
      simp only [isExtra_behind]
      split
      · rfl
      · rfl

section Constructs

variable {related : α → β → Prop} {first second : Reading (List Child)}
  (both : Matches lead (childrenBehind lead) first second)

theorem inside_matches
    {reading : Reading α} {other : Reading β} (matching : Corresponds lead related reading other)
    (kind : Kind) :
    Corresponds lead related (inside kind reading) (inside kind other) := by
  intro cursor another stands
  rw [inside, inside]
  rcases outcome_cases (matching cursor another stands) with
    ⟨_, _, _, _, firstRead, secondRead, isRelated, laterStands⟩ |
      ⟨_, _, firstRead, secondRead, sameRest⟩
  · rw [firstRead, secondRead]
    exact .read isRelated laterStands
  · rw [firstRead, secondRead]
    exact .stopped sameRest

include both

theorem field_matches (name : String) :
    Matches lead (childrenBehind lead) (field name first) (field name second) :=
  .bind both fun _ _ same => .pure (by simp [same])

theorem node_matches (kind : Kind) :
    Matches lead (childrenBehind lead) (node kind first) (node kind second) :=
  .bind place_matches fun _ _ sameStart => .bind comments_matches fun _ _ sameBefore =>
    .bind (inside_matches both kind) fun _ _ sameChildren =>
      .pure (by simp [sameStart, sameBefore, sameChildren, childrenBehind, behind])

theorem onlyIf_matches (condition : Bool) :
    Matches lead (childrenBehind lead) (onlyIf condition first) (onlyIf condition second) :=
  .ite both (.pure rfl)

/-- Readings in turn match if the first ones and the others do. -/
theorem inTurn_matches
    {others further : List (Reading (List Child))}
    (rest : Matches lead (childrenBehind lead) (inTurn others) (inTurn further)) :
    Matches lead (childrenBehind lead) (inTurn (first :: others)) (inTurn (second :: further)) :=
  .bind both fun _ _ sameFirst => .bind rest fun _ _ sameRest =>
    .pure (by simp [sameFirst, sameRest])

end Constructs

theorem inTurn_steady
    {readings : List (Reading (List Child))}
    (steady : ∀ reading ∈ readings, Steady lead reading) :
    Steady lead (inTurn readings) := by
  induction readings with
  | nil =>
      exact .pure rfl
  | cons first others inductionHypothesis =>
      exact inTurn_matches (steady first (by simp))
        (inductionHypothesis fun reading isOther => steady reading (by simp [isOther]))

section Repeating

variable {first second : Reading (Option (List Child))}
  (both : Matches lead (Option.map (childrenBehind lead)) first second)

include both

theorem many_matches (fuel : Nat) :
    Matches lead (childrenBehind lead) (many first fuel) (many second fuel) := by
  induction fuel with
  | zero =>
      exact .pure rfl
  | succ fuel inductionHypothesis =>
      refine .bind both fun found other same => ?_
      subst same
      cases found with
      | none =>
          exact .pure rfl
      | some children =>
          exact .bind inductionHypothesis fun _ _ sameRest => .pure (by simp [sameRest])

theorem repeated_matches :
    Matches lead (childrenBehind lead) (repeated first) (repeated second) :=
  .bounded (many_matches both)

end Repeating

section Alternatives

variable {related : α → β → Prop} {first second : Reading α} {third fourth : Reading β}

theorem rest_later
    {early final other another : Stop}
    (sameEarly : early.rest = other.rest) (sameFinal : final.rest = another.rest) :
    (early.later final).rest = (other.later another).rest := by
  rw [Stop.later, Stop.later, sameEarly, sameFinal]
  split
  · exact sameEarly
  · exact sameFinal

theorem atEnd_congr
    {early other : Stop} (sameRest : early.rest = other.rest) :
    early.atEnd = other.atEnd := by
  rw [Stop.atEnd, Stop.atEnd, sameRest]

theorem orElse_matches
    (firsts : Corresponds lead related first third)
    (seconds : Corresponds lead related second fourth) :
    Corresponds lead related (orElse first second) (orElse third fourth) := by
  intro cursor other stands
  rw [orElse, orElse]
  rcases outcome_cases (firsts cursor other stands) with
    ⟨value, later, otherValue, otherLater, firstRead, thirdRead, isRelated, laterStands⟩ |
      ⟨early, otherEarly, firstRead, thirdRead, sameEarly⟩
  · rw [firstRead, thirdRead]
    exact .read isRelated laterStands
  · simp only [firstRead, thirdRead, atEnd_congr sameEarly]
    cases otherEarly.atEnd with
    | true =>
        exact .stopped sameEarly
    | false =>
        rcases outcome_cases (seconds cursor other stands) with
          ⟨value, later, otherValue, otherLater, secondRead, fourthRead, isRelated, laterStands⟩ |
            ⟨final, otherFinal, secondRead, fourthRead, sameFinal⟩
        · rw [secondRead, fourthRead]
          exact .read isRelated laterStands
        · rw [secondRead, fourthRead]
          exact .stopped (rest_later sameEarly sameFinal)

theorem attempt_matches (firsts : Corresponds lead related first third) :
    Corresponds lead (Outcome lead related) (attempt first) (attempt third) := by
  intro cursor other stands
  exact .read (firsts cursor other stands) stands

end Alternatives

theorem resume_matches {later other : Cursor} (stands : later.Behind lead other) :
    Matches lead id (resume later) (resume other) := by
  intro _ _ _
  exact .read rfl stands

/-! ## What is read last -/

theorem splitLast_behind (children : List Child) :
    splitLast (childrenBehind lead children) =
      (childrenBehind lead (splitLast children).1, (splitLast children).2.behind lead) := by
  rw [childrenBehind_eq_map, childrenBehind_eq_map, splitLast, splitLast]
  cases last : children.getLast? with
  | none =>
      simp [last, List.map_dropLast, default, behind]
  | some child =>
      simp [last, List.map_dropLast]

end Reading

end ShapeAudit.Source
