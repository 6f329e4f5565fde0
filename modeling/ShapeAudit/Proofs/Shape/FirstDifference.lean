import ShapeAudit.Proofs.Shape.Position

/-!
# The reported difference is the first one

The comparison collects the way to a difference on its way back up.  Seen from
the root, that way is a position, and the comparison stops at the first
position of the traversal at which two trees differ by themselves.  The path
that is reported spells the position with the kinds of the first tree.
-/

namespace ShapeAudit.Shape

open Shape.Tree

/-! ## Where a walk stops -/

/-- Two sequences first differ in the first pair of items that differs. -/
theorem itemsTrail?_eq_some
    {itemsA itemsB : List Tree} {index : Nat} {trail : Trail}
    (found : itemsTrail? index itemsA itemsB = some trail) :
    ∃ place x y inner,
      itemsA[place]? = some x ∧ itemsB[place]? = some y ∧
      treeTrail? x y = some inner ∧
      trail = inner.within (.index (index + place)) ∧
      ∀ earlier < place, ∀ u v,
        itemsA[earlier]? = some u → itemsB[earlier]? = some v → erase u = erase v := by
  induction itemsA generalizing itemsB index with
  | nil =>
      simp [itemsTrail?] at found
  | cons a restA inductionHypothesis =>
      cases itemsB with
      | nil =>
          simp [itemsTrail?] at found
      | cons b restB =>
          cases head : treeTrail? a b with
          | some inner =>
              refine ⟨0, a, b, inner, rfl, rfl, head, ?_, ?_⟩
              · simpa [itemsTrail?, head, eq_comm] using found
              · intro earlier below
                omega
          | none =>
              have inRest : itemsTrail? (index + 1) restA restB = some trail := by
                simpa [itemsTrail?, head] using found
              obtain ⟨place, x, y, inner, atA, atB, differs, shifted, agree⟩ :=
                inductionHypothesis inRest
              refine ⟨place + 1, x, y, inner, atA, atB, differs, ?_, ?_⟩
              · rw [shifted]
                congr 2
                omega
              · intro earlier below u v earlierA earlierB
                cases earlier with
                | zero =>
                    have headAlike := (treeTrail?_eq_none_iff a b).mp head
                    simp only [List.getElem?_cons_zero, Option.some.injEq] at earlierA earlierB
                    rwa [← earlierA, ← earlierB]
                | succ before =>
                    exact agree before (by omega) u v earlierA earlierB

/-- Fields in order first differ in the first field whose sequences differ. -/
theorem fieldsTrail?_eq_some
    {fieldsA fieldsB : Fields} {trail : Trail}
    (ascendingA : Fields.Ascending fieldsA) (ascendingB : Fields.Ascending fieldsB)
    (sameNames : Fields.names fieldsA = Fields.names fieldsB)
    (found : fieldsTrail? fieldsA fieldsB = some trail) :
    ∃ name itemsA itemsB inner,
      Fields.find? name fieldsA = some itemsA ∧
      Fields.find? name fieldsB = some itemsB ∧
      treeTrail? (.list itemsA) (.list itemsB) = some inner ∧
      trail = inner.within (.field name) ∧
      ∀ earlier u v, Text.lessThan earlier name = true →
        Fields.find? earlier fieldsA = some u →
        Fields.find? earlier fieldsB = some v →
        eraseItems u = eraseItems v := by
  induction fieldsA generalizing fieldsB with
  | nil =>
      simp [fieldsTrail?] at found
  | cons fieldA restA inductionHypothesis =>
      obtain ⟨nameA, itemsA⟩ := fieldA
      cases fieldsB with
      | nil =>
          simp [fieldsTrail?] at found
      | cons fieldB restB =>
          obtain ⟨nameB, itemsB⟩ := fieldB
          obtain ⟨headBelowA, restAscendingA⟩ := List.pairwise_cons.mp ascendingA
          obtain ⟨headBelowB, restAscendingB⟩ := List.pairwise_cons.mp ascendingB
          obtain ⟨rfl, restNames⟩ : nameA = nameB ∧
              Fields.names restA = Fields.names restB := by
            simpa [Fields.names] using sameNames
          cases head : treeTrail? (.list itemsA) (.list itemsB) with
          | some inner =>
              have trailEqual : trail = inner.within (.field nameA) := by
                rw [treeTrail?] at head
                simpa only [fieldsTrail?, head, Option.some.injEq, eq_comm] using found
              refine ⟨nameA, itemsA, itemsB, inner, by simp [Fields.find?],
                by simp [Fields.find?], head, trailEqual, ?_⟩
              intro earlier u v below presentA
              -- every name of fields in order is at least the first one
              have absent : Fields.find? earlier ((nameA, itemsA) :: restA) = none := by
                apply Fields.find?_eq_none_of_below
                intro field isField
                rcases List.mem_cons.mp isField with rfl | inRest
                · exact below
                · exact Text.lessThan_trans below (headBelowA field inRest)
              simp [absent] at presentA
          | none =>
              have inRest : fieldsTrail? restA restB = some trail := by
                rw [treeTrail?] at head
                simpa only [fieldsTrail?, head] using found
              obtain ⟨name, innerA, innerB, inner, foundA, foundB, differs, trailEqual,
                  agree⟩ :=
                inductionHypothesis restAscendingA restAscendingB restNames inRest
              have nameAbove : nameA ≠ name :=
                Text.ne_of_lessThan (headBelowA _ (Fields.mem_of_find? foundA))
              refine ⟨name, innerA, innerB, inner, by simpa [Fields.find?, nameAbove],
                by simpa [Fields.find?, nameAbove], differs, trailEqual, ?_⟩
              intro earlier u v below presentA presentB
              by_cases atHead : nameA = earlier
              · have headAlike := (treeTrail?_eq_none_iff _ _).mp head
                simp only [erase, Tree.list.injEq] at headAlike
                simp only [Fields.find?, atHead, if_true, Option.some.injEq]
                  at presentA presentB
                rwa [← presentA, ← presentB]
              · apply agree earlier u v below
                · simpa [Fields.find?, atHead] using presentA
                · simpa [Fields.find?, atHead] using presentB

/-! ## Segments of a path -/

namespace Tree

/-- The segments that a value adds when it differs by itself: a node whose kind
or field names differ has been entered, so its kind is named. -/
def ownSegments (reason : Reason) : Tree → List Step
  | .node kind _ _ =>
    if reason = .kindMismatch ∨ reason = .fieldMismatch then [.kind kind] else []
  | _ => []

/-- The segments of one move: a node that is left by a field names its kind. -/
def moveSegments : Move → Tree → List Step
  | .field name, .node kind _ _ => [.kind kind, .field name]
  | .field name, _ => [.field name]
  | .index place, _ => [.index place]

/-- The segments of the way to a position at which a tree differs from another
for a reason. -/
def segments (reason : Reason) : Position → Tree → List Step
  | [], tree => ownSegments reason tree
  | move :: rest, tree =>
    moveSegments move tree ++
      match child? move tree with
      | some child => segments reason rest child
      | none => []

end Tree

/-- How a difference between two trees comes about: the trees differ by
themselves, or they agree and differ one move further down, in the first move
where they do. -/
inductive Located (a b : Tree) : Trail → Prop where
  | here {reason : Reason} :
      Mismatch a b reason →
      Located a b ⟨ownSegments reason a, reason⟩
  | deeper {move : Move} {x y : Tree} {inner : Trail} :
      ¬(a.isLexical = true ∧ b.isLexical = true) →
      (∀ reason, ¬ Mismatch a b reason) →
      child? move a = some x →
      child? move b = some y →
      treeTrail? x y = some inner →
      (∀ (earlier : Move) (u v : Tree), earlier.Before move →
        child? earlier a = some u → child? earlier b = some v → erase u = erase v) →
      Located a b ⟨moveSegments move a ++ inner.steps, inner.reason⟩

/-- Two lists of the same length agree by themselves. -/
private theorem located_list
    {itemsA itemsB : List Tree} {trail : Trail}
    (found : treeTrail? (.list itemsA) (.list itemsB) = some trail) :
    Located (.list itemsA) (.list itemsB) trail := by
  by_cases sameLength : itemsA.length = itemsB.length
  · have inItems : itemsTrail? 0 itemsA itemsB = some trail := by
      simpa [treeTrail?, sameLength] using found
    obtain ⟨place, x, y, inner, atA, atB, differs, rfl, agree⟩ :=
      itemsTrail?_eq_some inItems
    have located :
        Located (.list itemsA) (.list itemsB)
          ⟨moveSegments (.index place) (.list itemsA) ++ inner.steps, inner.reason⟩ := by
      refine .deeper (by simp [isLexical]) ?_ atA atB differs ?_
      · intro reason mismatch
        cases mismatch with
        | lexical oneSided =>
            simp [isLexical] at oneSided
        | length different =>
            exact different sameLength
        | shape _ _ different =>
            simp [form] at different
      · intro earlier u v before earlierA earlierB
        cases earlier with
        | field name =>
            cases before
        | index earlierPlace =>
            exact agree earlierPlace before u v earlierA earlierB
    simpa [moveSegments, Trail.within] using located
  · have trailEqual : trail = ⟨[], .lengthMismatch⟩ := by
      simpa [treeTrail?, sameLength, eq_comm] using found
    rw [trailEqual]
    exact .here (.length sameLength)

/-- Two nodes of one kind that is not lexical, with the same field names, agree
by themselves. -/
private theorem located_node
    {kind : Kind} {fieldsA fieldsB : Fields} {textA textB : Option String} {inner : Trail}
    (structural : kind.isLexical = false)
    (ascendingA : Fields.Ascending fieldsA) (ascendingB : Fields.Ascending fieldsB)
    (sameNames : Fields.names fieldsA = Fields.names fieldsB)
    (found : fieldsTrail? fieldsA fieldsB = some inner) :
    Located (.node kind fieldsA textA) (.node kind fieldsB textB)
      (inner.within (.kind kind)) := by
  obtain ⟨name, itemsA, itemsB, deepest, foundA, foundB, differs, rfl, agree⟩ :=
    fieldsTrail?_eq_some ascendingA ascendingB sameNames found
  have located :
      Located (.node kind fieldsA textA) (.node kind fieldsB textB)
        ⟨moveSegments (.field name) (.node kind fieldsA textA) ++ deepest.steps,
          deepest.reason⟩ := by
    refine .deeper (by simp [isLexical, structural]) ?_ (by simp [child?, foundA])
      (by simp [child?, foundB]) differs ?_
    · intro reason mismatch
      cases mismatch with
      | lexical oneSided =>
          simp [isLexical] at oneSided
      | kind _ _ different =>
          exact different rfl
      | fields _ different =>
          apply different
          apply Bool.eq_iff_iff.mpr
          rw [← Fields.mem_names_iff, ← Fields.mem_names_iff, sameNames]
      | shape _ _ different =>
          simp [form] at different
    · intro earlier u v before earlierA earlierB
      cases earlier with
      | field earlierName =>
          simp only [child?, Option.map_eq_some_iff] at earlierA earlierB
          obtain ⟨earlierItemsA, presentA, rfl⟩ := earlierA
          obtain ⟨earlierItemsB, presentB, rfl⟩ := earlierB
          simpa [erase] using agree earlierName _ _ before presentA presentB
      | index place =>
          cases before
  simpa [moveSegments, Trail.within] using located

private theorem located_nodes
    {kindA kindB : Kind} {fieldsA fieldsB : Fields} {textA textB : Option String}
    {trail : Trail}
    (ascendingA : Fields.Ascending fieldsA) (ascendingB : Fields.Ascending fieldsB)
    (found : treeTrail? (.node kindA fieldsA textA) (.node kindB fieldsB textB) =
      some trail) :
    Located (.node kindA fieldsA textA) (.node kindB fieldsB textB) trail := by
  by_cases sameLexical : kindA.isLexical = kindB.isLexical
  · cases lexicalB : kindB.isLexical with
    | true =>
        simp [treeTrail?, sameLexical, lexicalB] at found
    | false =>
        have lexicalA : kindA.isLexical = false := sameLexical.trans lexicalB
        by_cases sameKind : kindA = kindB
        · subst sameKind
          by_cases sameNames : Fields.names fieldsA = Fields.names fieldsB
          · obtain ⟨inner, inFields, rfl⟩ :
                ∃ inner, fieldsTrail? fieldsA fieldsB = some inner ∧
                  inner.within (.kind kindA) = trail := by
              simpa [treeTrail?, lexicalA, sameNames] using found
            exact located_node lexicalA ascendingA ascendingB sameNames inFields
          · have trailEqual : trail = ⟨[.kind kindA], .fieldMismatch⟩ := by
              simpa [treeTrail?, lexicalA, sameNames, eq_comm] using found
            obtain ⟨name, different⟩ :
                ∃ name, Fields.has name fieldsA ≠ Fields.has name fieldsB := by
              by_contra noneDifferent
              exact sameNames
                (Fields.names_eq_of_has_eq ascendingA ascendingB fun name =>
                  not_not.mp (not_exists.mp noneDifferent name))
            rw [trailEqual]
            exact .here (.fields lexicalA different)
        · have trailEqual : trail = ⟨[.kind kindA], .kindMismatch⟩ := by
            simpa [treeTrail?, lexicalA, lexicalB, sameKind, eq_comm] using found
          rw [trailEqual]
          exact .here (.kind lexicalA lexicalB sameKind)
  · have oneLexical : (kindA.isLexical || kindB.isLexical) = true := by
      cases lexicalA : kindA.isLexical <;> simp_all
    have notBoth : (kindA.isLexical && kindB.isLexical) = false := by
      cases lexicalA : kindA.isLexical <;> simp_all
    have trailEqual : trail = ⟨[], .lexicalMismatch⟩ := by
      rw [treeTrail?, notBoth, oneLexical] at found
      simpa [eq_comm] using found
    have oneSided :
        isLexical (.node kindA fieldsA textA) ≠ isLexical (.node kindB fieldsB textB) :=
      sameLexical
    rw [trailEqual]
    exact .here (.lexical oneSided)

/-- Values of different forms differ by themselves. -/
private theorem located_forms
    {a b : Tree} {trail : Trail} (otherForm : a.form ≠ b.form)
    (found : treeTrail? a b = some trail) :
    Located a b trail := by
  have trailEqual :
      trail = ⟨[], if a.isLexical ≠ b.isLexical then .lexicalMismatch else .shapeMismatch⟩ := by
    cases a <;> cases b <;> simp_all [treeTrail?, form, isLexical]
  have unnamed : ∀ reason, reason = .lexicalMismatch ∨ reason = .shapeMismatch →
      ownSegments reason a = [] := by
    rintro reason (rfl | rfl) <;> cases a <;> simp [ownSegments]
  by_cases sameLexical : a.isLexical = b.isLexical
  · have noneLexical : b.isLexical = false := by
      cases a <;> cases b <;> simp_all [form, isLexical]
    have located : Located a b ⟨ownSegments .shapeMismatch a, .shapeMismatch⟩ :=
      .here (.shape (sameLexical.trans noneLexical) noneLexical otherForm)
    simpa [trailEqual, sameLexical, unnamed] using located
  · have located : Located a b ⟨ownSegments .lexicalMismatch a, .lexicalMismatch⟩ :=
      .here (.lexical sameLexical)
    simpa [trailEqual, sameLexical, unnamed] using located

/-- What a difference that the comparison reports says about two trees. -/
theorem located_of_treeTrail?
    {a b : Tree} {trail : Trail} (orderedA : Ordered a) (orderedB : Ordered b)
    (found : treeTrail? a b = some trail) :
    Located a b trail := by
  by_cases sameForm : a.form = b.form
  · cases a with
    | node kindA fieldsA textA =>
        cases b with
        | node kindB fieldsB textB =>
            rw [Ordered] at orderedA orderedB
            exact located_nodes orderedA.1 orderedB.1 found
        | list _ | word _ =>
            cases sameForm
    | list itemsA =>
        cases b with
        | list itemsB =>
            exact located_list found
        | node _ _ _ | word _ =>
            cases sameForm
    | word wordA =>
        cases b with
        | word wordB =>
            obtain ⟨different, rfl⟩ :
                wordA ≠ wordB ∧ (⟨[], .textMismatch⟩ : Trail) = trail := by
              simpa [treeTrail?] using found
            exact .here (.text different)
        | node _ _ _ | list _ =>
            cases sameForm
  · exact located_forms sameForm found

/-! ## The first difference -/

private theorem moveSegments_length_pos (move : Move) (tree : Tree) :
    0 < (moveSegments move tree).length := by
  cases move <;> cases tree <;> simp [moveSegments]

/-- The comparison stops at the first difference, and the segments that it has
collected are those of its position.  Every move adds segments, so the
induction is on their number. -/
theorem firstDifference_of_treeTrail?
    {a b : Tree} {trail : Trail} (orderedA : Ordered a) (orderedB : Ordered b)
    (found : treeTrail? a b = some trail) :
    ∃ position,
      FirstDifference a b position trail.reason ∧
        trail.steps = segments trail.reason position a := by
  induction counted : trail.steps.length using Nat.strong_induction_on
    generalizing a b trail with
  | h count inductionHypothesis =>
    cases located_of_treeTrail? orderedA orderedB found with
    | here mismatch =>
        refine ⟨[], ⟨⟨a, b, .here a b, ?_⟩, ?_⟩, rfl⟩
        · intro other
          constructor
          · intro isOther
            exact isOther.unique mismatch
          · rintro rfl
            exact mismatch
        · intro earlier u v _ before
          cases before
    | @deeper move x y inner traversed agree childA childB innerFound agreeBefore =>
        have shorter : inner.steps.length < count := by
          have movePositive := moveSegments_length_pos move a
          simp only [List.length_append] at counted
          omega
        obtain ⟨position, ⟨⟨u, v, met, differs⟩, agreesBefore⟩, innerSegments⟩ :=
          inductionHypothesis _ shorter (ordered_of_child? orderedA childA)
            (ordered_of_child? orderedB childB) innerFound rfl
        refine ⟨move :: position,
          ⟨⟨u, v, .deeper traversed childA childB met, differs⟩, ?_⟩, ?_⟩
        · intro earlier u v metEarlier before
          cases metEarlier with
          | here =>
              exact agree
          | deeper _ earlierA earlierB metBelow =>
              cases before with
              | rel moveBefore =>
                  exact not_mismatch_of_meets metBelow
                    (agreeBefore _ _ _ moveBefore earlierA earlierB)
              | cons restBefore =>
                  cases childA.symm.trans earlierA
                  cases childB.symm.trans earlierB
                  exact agreesBefore _ _ _ metBelow restBefore
        · simp [segments, childA, innerSegments]

/-! ## The path -/

namespace Step

/-- What stands before a segment that is not the first: a dot, unless the
segment begins with a bracket. -/
def separator (step : Step) : String :=
  if Text.startsWith step.text "[" then "" else "."

/-- What would stand before a segment if a dot stood before all but the
indices. -/
def dot : Step → String
  | .index _ => ""
  | _ => "."

end Step

/-- Segments as one text, each but the first behind its separator. -/
def joined (separator : Step → String) : List Step → String
  | [] => ""
  | first :: rest => first.text ++ String.join (rest.map fun step => separator step ++ step.text)

theorem Kind.name_ne_empty (kind : Kind) :
    kind.name ≠ "" := by
  cases kind <;> decide

private theorem extend_of_ne_empty
    {path : String} (nonempty : path ≠ "") (step : Step) :
    Trail.extend path step.text = path ++ (step.separator ++ step.text) := by
  have notEmpty : path.isEmpty = false := by
    simpa [String.isEmpty_iff] using nonempty
  by_cases bracketed : Text.startsWith step.text "[" = true
  · simp [Trail.extend, Step.separator, bracketed]
  · simp [Trail.extend, Step.separator, bracketed, notEmpty, String.append_assoc]

private theorem foldl_extend
    (steps : List Step) {path : String} (nonempty : path ≠ "") :
    steps.foldl (fun path step => Trail.extend path step.text) path =
      path ++ String.join (steps.map fun step => step.separator ++ step.text) := by
  induction steps generalizing path with
  | nil =>
      simp
  | cons step rest inductionHypothesis =>
      have stillNonempty : path ++ (step.separator ++ step.text) ≠ "" := by
        simp [nonempty]
      rw [List.foldl_cons, extend_of_ne_empty nonempty, inductionHypothesis stillNonempty]
      simp [String.append_assoc]

/-- A path that begins with a kind is its segments behind their separators. -/
theorem path_eq_joined
    (kind : Kind) (steps : List Step) (reason : Reason) :
    (Trail.mk (.kind kind :: steps) reason).path =
      joined Step.separator (.kind kind :: steps) := by
  have nonempty : Trail.extend "" (Step.kind kind).text ≠ "" := by
    simp [Trail.extend, Step.text, Kind.name_ne_empty]
  rw [Trail.path, List.foldl_cons, foldl_extend steps nonempty]
  simp [joined, Trail.extend]

theorem Kind.name_not_bracketed (kind : Kind) :
    Text.startsWith kind.name "[" = false := by
  cases kind <;> decide

theorem Step.separator_eq_dot
    {step : Step}
    (plain : ∀ name, step = .field name → Text.startsWith name "[" = false) :
    step.separator = step.dot := by
  cases step with
  | kind reached =>
      simp [Step.separator, Step.dot, Step.text, Kind.name_not_bracketed]
  | field name =>
      simp [Step.separator, Step.dot, Step.text, plain name rfl]
  | index position =>
      simp [Step.separator, Step.dot, Step.text, Text.startsWith, Text.afterPrefix?]

theorem joined_congr
    {separator other : Step → String} {steps : List Step}
    (same : ∀ step ∈ steps, separator step = other step) :
    joined separator steps = joined other steps := by
  cases steps with
  | nil =>
      rfl
  | cons first rest =>
      have restSame :
          rest.map (fun step => separator step ++ step.text) =
            rest.map fun step => other step ++ step.text := by
        apply List.map_congr_left
        intro step inRest
        rw [same step (List.mem_cons_of_mem first inRest)]
      rw [joined, joined, restSame]

theorem mem_position_of_mem_segments
    {reason : Reason} {position : Position} {tree : Tree} {name : String}
    (isSegment : Step.field name ∈ segments reason position tree) :
    Move.field name ∈ position := by
  induction position generalizing tree with
  | nil =>
      cases tree <;> simp [segments, ownSegments] at isSegment
  | cons move rest inductionHypothesis =>
      rw [segments, List.mem_append] at isSegment
      rcases isSegment with ofMove | ofRest
      · cases move <;> cases tree <;> simp_all [moveSegments]
      · cases isChild : child? move tree with
        | none =>
            simp [isChild] at ofRest
        | some child =>
            rw [isChild] at ofRest
            exact List.mem_cons_of_mem move (inductionHypothesis ofRest)

/-- The way down from a node begins with its kind, or the node differs by
itself and adds no segment. -/
theorem segments_node
    {kind : Kind} {fields : Fields} {text : Option String} {b u v : Tree}
    {position : Position} (met : Meets (.node kind fields text) b position u v)
    (reason : Reason) :
    segments reason position (.node kind fields text) = [] ∨
      ∃ steps, segments reason position (.node kind fields text) = .kind kind :: steps := by
  cases met with
  | here =>
      by_cases entered : reason = .kindMismatch ∨ reason = .fieldMismatch
      · exact Or.inr ⟨[], by simp [segments, ownSegments, entered]⟩
      · exact Or.inl (by simp [segments, ownSegments, entered])
  | @deeper _ _ _ _ _ _ move rest _ childA _ _ =>
      cases move with
      | field name =>
          exact Or.inr ⟨_, by rw [segments, moveSegments]; rfl⟩
      | index place =>
          cases childA

/-- The difference that is reported for two nodes.  None is reported exactly on
equal erasures.  One that is reported stands at a position that both nodes have
and that the traversal reaches, the two values there differ by themselves for
the reported reason and for no other, and at all positions that are traversed
before they agree.  The path spells that position with the kinds of the first
node: a dot stands between segments, except before one that begins with a
bracket.  Where no field name begins with a bracket, those are the indices. -/
theorem firstDivergence?_reports_first_difference
    (a b : Node) (orderedA : Ordered a.toTree) (orderedB : Ordered b.toTree) :
    (a.firstDivergence? b = none ↔ erase a.toTree = erase b.toTree) ∧
      ∀ divergence, a.firstDivergence? b = some divergence →
        ∃ position : Position,
          FirstDifference a.toTree b.toTree position divergence.reason ∧
          divergence.path =
            joined Step.separator (segments divergence.reason position a.toTree) ∧
          ((∀ name, Move.field name ∈ position → Text.startsWith name "[" = false) →
            divergence.path =
              joined Step.dot (segments divergence.reason position a.toTree)) := by
  constructor
  · rw [Node.firstDivergence?, Option.map_eq_none_iff]
    exact treeTrail?_eq_none_iff a.toTree b.toTree
  · intro divergence reported
    obtain ⟨⟨steps, reason⟩, found, rfl⟩ := Option.map_eq_some_iff.mp reported
    obtain ⟨position, isFirst, collected⟩ :=
      firstDifference_of_treeTrail? orderedA orderedB found
    simp only at collected
    subst collected
    have spelled :
        (Divergence.ofTrail ⟨segments reason position a.toTree, reason⟩).path =
          joined Step.separator (segments reason position a.toTree) := by
      obtain ⟨u, v, met, -⟩ := isFirst.differs
      rcases segments_node met reason with empty | ⟨rest, entered⟩
      · rw [Node.toTree, empty]
        rfl
      · rw [Node.toTree, entered]
        exact path_eq_joined a.kind rest reason
    refine ⟨position, isFirst, spelled, ?_⟩
    intro plain
    rw [spelled]
    apply joined_congr
    intro step isSegment
    apply Step.separator_eq_dot
    rintro name rfl
    exact plain name (mem_position_of_mem_segments isSegment)

/-- A program of a name and a statement with an operator. -/
def operatorSample (name operator : String) : Node :=
  { kind := .program
    fields := [("children",
      [.node .identifier [(name, [])] (some name),
        .node .expressionStatement [("operator", [.word operator])] none])] }

theorem operatorSample_ordered (name operator : String) :
    Ordered (operatorSample name operator).toTree := by
  simp [operatorSample, Node.toTree, Ordered, OrderedFields, OrderedItems, Fields.Ascending]

/-- The two names are not looked into, and the operators differ. -/
theorem firstDivergence?_at_operator :
    ∃ position : Position,
      FirstDifference (operatorSample "a" "+").toTree (operatorSample "b" "-").toTree
        position .textMismatch ∧
      "Program.children[1].ExpressionStatement.operator[0]" =
        joined Step.separator
          (segments .textMismatch position (operatorSample "a" "+").toTree) := by
  have reported :
      (operatorSample "a" "+").firstDivergence? (operatorSample "b" "-") =
        some ⟨"Program.children[1].ExpressionStatement.operator[0]", .textMismatch⟩ := by
    decide +kernel
  obtain ⟨position, isFirst, spelled, -⟩ :=
    (firstDivergence?_reports_first_difference _ _ (operatorSample_ordered "a" "+")
      (operatorSample_ordered "b" "-")).2 _ reported
  exact ⟨position, isFirst, spelled⟩

/-- A program with one field, whose name begins with a bracket. -/
def bracketSample (value : String) : Node :=
  { kind := .program, fields := [("[x", [.word value])] }

/-- No dot stands before a field name that begins with a bracket, so the path
is not that of any position with dots before all segments but the indices. -/
theorem bracketed_field_name_has_no_dot :
    Ordered (bracketSample "a").toTree ∧ Ordered (bracketSample "b").toTree ∧
      ∃ divergence,
        (bracketSample "a").firstDivergence? (bracketSample "b") = some divergence ∧
        ∀ (reason : Reason) (position : Position),
          divergence.path ≠
            joined Step.dot (segments reason position (bracketSample "a").toTree) := by
  have ordered : ∀ value, Ordered (bracketSample value).toTree := by
    intro value
    simp [bracketSample, Node.toTree, Ordered, OrderedFields, OrderedItems, Fields.Ascending]
  refine ⟨ordered "a", ordered "b", ⟨"Program[x[0]", .textMismatch⟩, by decide +kernel, ?_⟩
  intro reason position equal
  have letters := congrArg String.toList equal
  cases position with
  | nil =>
      by_cases entered : reason = .kindMismatch ∨ reason = .fieldMismatch
      · simp [bracketSample, Node.toTree, segments, ownSegments, entered, joined, Step.text,
          Kind.name] at letters
      · simp [bracketSample, Node.toTree, segments, ownSegments, entered, joined] at letters
  | cons move rest =>
      cases move with
      | field name =>
          simp [bracketSample, Node.toTree, segments, moveSegments, joined, Step.text,
            Step.dot, Kind.name] at letters
      | index place =>
          simp [bracketSample, Node.toTree, segments, moveSegments, joined, Step.text,
            Step.dot, Kind.name] at letters

end ShapeAudit.Shape
