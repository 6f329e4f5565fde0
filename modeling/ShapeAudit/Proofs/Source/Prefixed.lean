import ShapeAudit.Proofs.Source.Placement.Program
import ShapeAudit.Proofs.Text.Replacement

/-!
# A program behind a string statement

A string with a semicolon before a source makes it one statement longer, and
nothing else: the statements of the source are read as they were, wherever they
stand now.  The one thing that may stand at the beginning of a source alone is
a hash bang line, which no statement begins with.
-/

namespace ShapeAudit.Source

open Cursor
open ShapeAudit.Source.Tree (childrenBehind unplacedChildren unplacedChildren_childrenBehind)

variable {lead : List Char}

namespace Grammar

open Reading

/-! ## Statements behind blanks -/

/-- Reads up to a number of statements and the comments behind the last one. -/
def statementsToEnd (fuel : Nat) : Reading (List Child) := do
  let statements ← many nextStatement fuel
  return statements ++ (← comments)

theorem statementsToEnd_steady (fuel : Nat) : Steady lead (statementsToEnd fuel) :=
  .bind (many_matches nextStatement_matches fuel) fun _ _ sameStatements =>
    .bind comments_matches fun _ _ sameComments =>
      .pure (by simp [sameStatements, sameComments])

theorem statementsToEnd_enough
    {fuel other : Nat} {cursor : Cursor}
    (enough : cursor.rest.length < fuel) (otherEnough : cursor.rest.length < other) :
    statementsToEnd fuel cursor = statementsToEnd other cursor := by
  rw [statementsToEnd, statementsToEnd, bind_apply, bind_apply,
    many_enough (fun _ _ _ read => nextStatement_takes read) enough otherEnough]

/-- Behind the last statement there are only comments. -/
theorem statementsToEnd_of_none
    {cursor later : Cursor} (ended : nextStatement cursor = .ok (none, later)) (fuel : Nat) :
    statementsToEnd (fuel + 1) cursor =
      .ok (passedComments later, { later with passed := [] }) := by
  have noneLeft : many nextStatement (fuel + 1) cursor = .ok ([], later) := by
    rw [many, bind_of_ok ended]
    rfl
  rw [statementsToEnd, bind_of_ok noneLeft]
  rfl

theorem statementsToEnd_of_some
    {cursor later : Cursor} {first : List Child}
    (read : nextStatement cursor = .ok (some first, later)) (fuel : Nat) :
    statementsToEnd (fuel + 1) cursor =
      (statementsToEnd fuel later).map fun result => (first ++ result.1, result.2) := by
  have firstTaken :
      many nextStatement (fuel + 1) cursor =
        (many nextStatement fuel >>= fun others => pure (first ++ others)) later := by
    rw [many, bind_of_ok read]
  rw [statementsToEnd, statementsToEnd, bind_apply, bind_apply, firstTaken, bind_apply]
  cases many nextStatement fuel later with
  | error stopped =>
      rfl
  | ok pair =>
      simp [bind_apply, pure_apply, comments, Except.map]

theorem statementsToEnd_of_error
    {cursor : Cursor} {stopped : Stop}
    (stops : nextStatement cursor = .error stopped) (fuel : Nat) :
    statementsToEnd (fuel + 1) cursor = .error stopped := by
  rw [statementsToEnd, many]
  exact bind_of_error (bind_of_error stops)

/-- What is read to the end behind a lead is what is read without it, whatever
the bound. -/
theorem statementsToEnd_behind
    {cursor other : Cursor} (stands : cursor.Behind lead other)
    {fuel otherFuel : Nat} (enough : cursor.rest.length < fuel)
    (otherEnough : cursor.rest.length < otherFuel) :
    Outcome lead (fun children others => childrenBehind lead children = others)
      (statementsToEnd fuel cursor) (statementsToEnd otherFuel other) := by
  rw [statementsToEnd_enough enough otherEnough]
  exact statementsToEnd_steady otherFuel cursor other stands

theorem isExtra_of_mem_passedComments
    {cursor : Cursor} (unseen : cursor.mark = .unseen) (nothingPassed : cursor.passed = []) :
    ∀ child ∈ passedComments (look .free cursor), child.2.isExtra = true := by
  have onlyComments : ∀ tree ∈ (look .free cursor).passed, tree.isExtra = true := by
    rw [look, if_pos unseen]
    exact lookFrom_free_passed (by simp [nothingPassed])
  simpa [passedComments] using onlyComments

/-- Where looking ahead ends behind a lead, the statements that follow are those
that are read without it, with the comments before them; or both readings stop. -/
theorem statementsToEnd_of_look
    {cursor other : Cursor} (unseen : cursor.mark = .unseen) (otherUnseen : other.mark = .unseen)
    (stands : (look .free cursor).Behind lead (look .free other))
    {fuel otherFuel : Nat} (enough : (poised cursor).rest.length < fuel)
    (otherEnough : other.rest.length < otherFuel) :
    (∃ children later last,
      statementsToEnd fuel (poised cursor) = .ok (children, later) ∧
        statementsToEnd otherFuel other =
          .ok (passedComments (look .free other) ++ childrenBehind lead children, last)) ∨
    (∃ stopped otherStopped,
      statementsToEnd fuel (poised cursor) = .error stopped ∧
        statementsToEnd otherFuel other = .error otherStopped) := by
  obtain ⟨fuel, rfl⟩ : ∃ less, fuel = less + 1 := ⟨fuel - 1, by omega⟩
  obtain ⟨otherFuel, rfl⟩ : ∃ less, otherFuel = less + 1 := ⟨otherFuel - 1, by omega⟩
  rcases outcome_cases
      (nextStatement_matches (poised cursor) (poised other) stands.withoutPassed) with
    ⟨found, after, otherFound, otherAfter, foundRead, otherRead, sameFound, afterStands⟩ |
      ⟨stopped, otherStopped, stops, otherStops, _⟩
  · rcases option_cases sameFound with
      ⟨rfl, rfl⟩ | ⟨first, otherFirst, rfl, rfl, sameFirst⟩
    · -- There are only comments, and the first cursor has passed them already.
      obtain ⟨rfl, _⟩ := nextStatement_of_none unseen foundRead
      obtain ⟨_, ended⟩ := nextStatement_of_none otherUnseen otherRead
      refine .inl ⟨[], poised cursor, poised other, statementsToEnd_of_none foundRead fuel, ?_⟩
      rw [statementsToEnd_of_none ended, childrenBehind_nil, List.append_nil]
      rfl
    · have otherStatement := nextStatement_of_some otherUnseen otherRead
      have shorter := nextStatement_takes foundRead
      have otherShorter := nextStatement_takes otherStatement
      have sameLength := congrArg List.length afterStands.rest
      have enoughAfter : after.rest.length < fuel := by
        omega
      have otherEnoughAfter : after.rest.length < otherFuel := by
        omega
      rw [statementsToEnd_of_some foundRead, statementsToEnd_of_some otherStatement]
      rcases outcome_cases (statementsToEnd_behind afterStands enoughAfter otherEnoughAfter) with
        ⟨statements, last, _, otherLast, statementsRead, othersRead, rfl, _⟩ |
          ⟨stopped, otherStopped, stops, otherStops, _⟩
      · refine .inl ⟨first ++ statements, last, otherLast, ?_, ?_⟩
        · rw [statementsRead]
          rfl
        · rw [othersRead]
          simp [Except.map, sameFirst]
      · refine .inr ⟨stopped, otherStopped, ?_, ?_⟩
        · rw [stops]
          rfl
        · rw [otherStops]
          rfl
  · obtain ⟨another, anotherStops⟩ := nextStatement_of_error otherUnseen otherStops
    exact .inr ⟨stopped, another, statementsToEnd_of_error stops fuel,
      statementsToEnd_of_error anotherStops otherFuel⟩

/-! ## Programs and their statements -/

/-- Without a line that begins with `#!`, a program is its statements. -/
theorem program_of_statements
    {cursor : Cursor} (unseen : cursor.mark = .unseen)
    (noLine : Text.afterPrefix? "#!".toList (look .free cursor).rest = none) :
    program cursor =
      match statementsToEnd ((look .free cursor).rest.length + 1) (poised cursor) with
      | .ok (children, later) =>
          .ok (passedComments (look .free cursor) ++
            [(none, .branch .program (look .free cursor).place children)], later)
      | .error stopped => .error (stopped.inside .program) := by
  have placed : Reading.place cursor = .ok ((look .free cursor).place, look .free cursor) := by
    rfl
  have taken : comments (look .free cursor) =
      .ok (passedComments (look .free cursor), poised cursor) := by
    rfl
  have looked : ahead (poised cursor) = .ok ((look .free cursor).rest, poised cursor) := by
    rw [ahead, look_poised unseen, if_pos (poised_mark unseen)]
    rfl
  have noHashBang : hashBang (poised cursor) = .ok ([], poised cursor) := by
    rw [hashBang, bind_of_ok looked, noLine]
    rfl
  have ownStatements :
      (repeated nextStatement >>= fun rest => comments >>= fun trailing => pure (rest ++ trailing))
          (poised cursor) =
        statementsToEnd ((look .free cursor).rest.length + 1) (poised cursor) := by
    rfl
  rw [program, node, bind_of_ok placed, bind_of_ok taken, bind_apply, inside,
    bind_of_ok noHashBang]
  simp only [List.nil_append, ownStatements]
  cases statementsToEnd ((look .free cursor).rest.length + 1) (poised cursor) with
  | error stopped =>
      rfl
  | ok pair =>
      rfl

/-! ## No statement begins with a hash bang -/

/-- A reading stops. -/
def Stops {α : Type} (reading : Reading α) (cursor : Cursor) : Prop :=
  ∃ stopped, reading cursor = .error stopped

theorem Stops.bind
    {α β : Type} {reading : Reading α} {next : α → Reading β} {cursor : Cursor}
    (stops : Stops reading cursor) :
    Stops (reading >>= next) cursor := by
  obtain ⟨stopped, found⟩ := stops
  exact ⟨stopped, bind_of_error found⟩

theorem Stops.after
    {α β : Type} {reading : Reading α} {next : α → Reading β} {cursor later : Cursor} {value : α}
    (read : reading cursor = .ok (value, later)) (stops : Stops (next value) later) :
    Stops (reading >>= next) cursor := by
  rw [Stops, bind_of_ok read]
  exact stops

/-- The cursor is at a token that begins with `#!`, and no comment is left. -/
structure AtHashBang (tail : List Char) (cursor : Cursor) : Prop where
  rest_eq : cursor.rest = '#' :: '!' :: tail
  mark_eq : cursor.mark = .token
  passed_eq : cursor.passed = []

section HashBang

variable {tail : List Char} {cursor : Cursor} (atHashBang : AtHashBang tail cursor)

include atHashBang

theorem ahead_hashBang : ahead cursor = .ok ('#' :: '!' :: tail, cursor) := by
  simp [ahead, look, atHashBang.mark_eq, atHashBang.rest_eq]

theorem nextWord_hashBang : nextWord cursor = .ok ("", cursor) := by
  have noWord : Lexeme.word ('#' :: '!' :: tail) = 0 := by
    simp [Lexeme.word, Lexeme.wordTail, Text.isAsciiDigit, isWordPart, isSign]
  simp [nextWord, bind_apply, pure_apply, ahead_hashBang atHashBang, noWord]

theorem node_stops_hashBang
    {kind : Kind} {reading : Reading (List Child)} (stops : Stops reading cursor) :
    Stops (node kind reading) cursor := by
  have placed : Reading.place cursor = .ok (cursor.place, cursor) := by
    simp [Reading.place, look, atHashBang.mark_eq]
  have noComments : comments cursor = .ok ([], cursor) := by
    obtain ⟨rest, place, passed, mark, taken⟩ := cursor
    obtain rfl : passed = [] := atHashBang.passed_eq
    rfl
  obtain ⟨stopped, found⟩ := stops
  refine .after placed (.after noComments (.bind ⟨stopped.inside kind, ?_⟩))
  rw [inside, found]
  rfl

theorem operand_stops_hashBang (descend : Descend) (updates : Bool) (context : Context) :
    Stops (operand descend updates context) cursor := by
  have noName : Lexeme.privateName ('#' :: '!' :: tail) = 0 := by
    simp [Lexeme.privateName, Lexeme.word, Lexeme.wordTail, Text.isAsciiDigit, isWordPart, isSign]
  have nameStops : Stops privateName cursor := by
    refine .after (ahead_hashBang atHashBang) ⟨.here cursor .operand, ?_⟩
    rw [noName]
    rfl
  refine .after (ahead_hashBang atHashBang) (.after (nextWord_hashBang atHashBang) ?_)
  exact node_stops_hashBang atHashBang (.bind nameStops.bind)

theorem statement_stops_hashBang (depth : Nat) :
    Stops (reach (depth + 4) (.statement false)) cursor := by
  -- No keyword and no declaration begins with the sign, so an expression would
  -- have to, and its first operand a private name, which has no letter here.
  have expressionsStop : Stops (reach (depth + 3) (.expressions .tail)) cursor :=
    .bind (.bind (operand_stops_hashBang atHashBang (reach depth) true _))
  have noDecorator : isNext "@" cursor = .ok (false, cursor) := by
    simp [isNext, bind_apply, pure_apply, ahead_hashBang atHashBang, Text.afterPrefix?]
  have noDeclaration : declaration? (reach (depth + 3)) false cursor = .ok (none, cursor) :=
    (bind_of_ok noDecorator).trans ((bind_of_ok (nextWord_hashBang atHashBang)).trans rfl)
  have statementStops : Stops (wordStatement (reach (depth + 3)) false "") cursor :=
    .after noDeclaration (node_stops_hashBang atHashBang expressionsStop.bind)
  exact .after (ahead_hashBang atHashBang)
    (.after (nextWord_hashBang atHashBang) statementStops)

end HashBang

theorem nextStatement_stops_hashBang
    {cursor : Cursor} (unseen : cursor.mark = .unseen)
    (line : (Text.afterPrefix? "#!".toList (look .free cursor).rest).isSome = true) :
    Stops nextStatement cursor := by
  obtain ⟨tail, rest_eq⟩ : ∃ tail, (look .free cursor).rest = '#' :: '!' :: tail := by
    obtain ⟨tail, found⟩ := Option.isSome_iff_exists.mp line
    exact ⟨tail, Text.afterPrefix?_eq_some_iff.mp found⟩
  have atHashBang : AtHashBang tail (poised cursor) := ⟨rest_eq, poised_mark unseen, rfl⟩
  have notEnded : (look .free cursor).rest.isEmpty = false := by
    rw [rest_eq]
    rfl
  obtain ⟨stopped, stops⟩ :
      Stops (reach (8 * (look .free cursor).rest.length + 8) (.statement false))
        (poised cursor) :=
    statement_stops_hashBang atHashBang (8 * (look .free cursor).rest.length + 4)
  rw [Stops, nextStatement_eq, notEnded, stops]
  exact ⟨_, rfl⟩

end Grammar

open Grammar

/-! ## Sources -/

/-- Whether a source begins, behind comments, with a line that starts with `#!`. -/
def opensWithHashBang (chars : List Char) : Bool :=
  (Text.afterPrefix? "#!".toList (look .free (Cursor.start chars)).rest).isSome

theorem readTree_of_statements
    {chars : List Char} (noLine : opensWithHashBang chars = false) :
    readTree chars =
      match statementsToEnd ((look .free (Cursor.start chars)).rest.length + 1)
          (poised (Cursor.start chars)) with
      | .ok (children, _) =>
          .ok (.branch .program (look .free (Cursor.start chars)).place children)
      | .error stopped => .error (stopped.inside .program) := by
  have noPrefix : Text.afterPrefix? "#!".toList (look .free (Cursor.start chars)).rest = none := by
    simpa [opensWithHashBang] using noLine
  have unseen : (Cursor.start chars).mark = .unseen := by
    rfl
  unfold readTree
  rw [program_of_statements unseen noPrefix]
  cases statementsToEnd ((look .free (Cursor.start chars)).rest.length + 1)
      (poised (Cursor.start chars)) with
  | error stopped =>
      rfl
  | ok pair =>
      simp [Reading.splitLast]

section StringFirst

variable {length : Nat} {chars blanks source : List Char}
  (atString : (Cursor.start chars).AtString length (blanks ++ source))
  (areBlank : ∀ c ∈ blanks, isSpace c = true)

include atString

theorem nextStatement_string :
    nextStatement (Cursor.start chars).seen =
      .ok (some [(none, stringStatement length (Cursor.start chars))],
        ((Cursor.start chars).pastString length).take 1) :=
  nextStatement_atString atString.seen

/-- The string is the first statement, and the others are read behind its semicolon. -/
theorem readTree_string :
    readTree chars =
      match statementsToEnd (Cursor.start chars).rest.length
          (((Cursor.start chars).pastString length).take 1) with
      | .ok (children, _) =>
          .ok (.branch .program ⟨1, 1⟩
            ((none, stringStatement length (Cursor.start chars)) :: children))
      | .error stopped => .error (stopped.inside .program) := by
  have looked := look_sign atString.atQuote .free
  have posed : poised (Cursor.start chars) = (Cursor.start chars).seen := by
    rw [poised, looked]
    rfl
  have noLine : opensWithHashBang chars = false := by
    rw [opensWithHashBang, looked, seen_rest, atString.atQuote.rest_eq]
    rfl
  rw [readTree_of_statements noLine, posed, looked, seen_rest,
    statementsToEnd_of_some (nextStatement_string atString)]
  cases statementsToEnd (Cursor.start chars).rest.length
      (((Cursor.start chars).pastString length).take 1) with
  | error stopped =>
      rfl
  | ok pair =>
      rfl

include areBlank

/-- Behind a string statement, looking ahead ends where it ends in the source. -/
theorem look_behind_string :
    ∃ lead,
      chars = lead ++ source ∧
        (look .free (Cursor.start source)).Behind lead
          (look .free (((Cursor.start chars).pastString length).take 1)) := by
  obtain ⟨rest_eq, unseen, nothingPassed⟩ := atString.past
  obtain ⟨movedRest, movedMark, movedPassed⟩ :=
    (((Cursor.start chars).pastString length).take 1).advance_fields blanks.length
  have after_eq : chars.drop (length + 1) = ';' :: (blanks ++ source) := atString.after_eq
  have atSemicolon : ((Cursor.start chars).pastString length).rest = ';' :: (blanks ++ source) :=
    atString.seen.take.seen.rest_eq
  have placePast :
      (((Cursor.start chars).pastString length).take 1).place =
        (chars.take (length + 1) ++ [';']).foldl placeAfter ⟨1, 1⟩ := by
    have placeString :
        ((Cursor.start chars).pastString length).place =
          (chars.take (length + 1)).foldl placeAfter ⟨1, 1⟩ :=
      place_advance (length + 1) (Cursor.start chars).seen
    have placeSemicolon := place_advance 1 ((Cursor.start chars).pastString length)
    rw [atSemicolon, placeString] at placeSemicolon
    rw [List.foldl_append]
    exact placeSemicolon
  refine ⟨chars.take (length + 1) ++ [';'] ++ blanks, ?_, ?_⟩
  · rw [List.append_assoc, List.append_assoc, List.singleton_append, ← after_eq,
      List.take_append_drop]
  · rw [look_spaces unseen rest_eq areBlank]
    refine behind_look ⟨?_, ?_, ?_, movedMark.symm, Nat.le_refl 1⟩ .free
    · rw [movedRest, rest_eq, List.drop_left]
      rfl
    · rw [place_advance, rest_eq, List.take_left, placePast, ← List.foldl_append]
      exact (foldl_placeAfter _).symm
    · rw [movedPassed, nothingPassed]
      rfl

/-- Behind a string statement a source has the children it had, in their places
there, with comments before them; or neither reads. -/
theorem readTree_behind_string (noLine : opensWithHashBang source = false) :
    ∃ lead,
      chars = lead ++ source ∧
      ((∃ start children before,
        readTree source = .ok (.branch .program start children) ∧
          readTree chars =
            .ok (.branch .program ⟨1, 1⟩
              ((none, stringStatement length (Cursor.start chars)) ::
                (before ++ childrenBehind lead children))) ∧
          ∀ child ∈ before, child.2.isExtra = true) ∨
      (∃ stopped otherStopped,
        readTree source = .error stopped ∧ readTree chars = .error otherStopped)) := by
  obtain ⟨lead, parted, stands⟩ := look_behind_string atString areBlank
  obtain ⟨_, unseen, nothingPassed⟩ := atString.past
  have takesText := nextStatement_takes (nextStatement_string atString)
  have sourceTree := readTree_of_statements noLine
  have longerTree := readTree_string atString
  have enough :
      (poised (Cursor.start source)).rest.length <
        (look .free (Cursor.start source)).rest.length + 1 :=
    Nat.lt_succ_self _
  rw [seen_rest] at takesText
  refine ⟨lead, parted, ?_⟩
  rcases statementsToEnd_of_look rfl unseen stands enough takesText with
    ⟨children, later, last, childrenRead, othersRead⟩ | ⟨stopped, otherStopped, stops, otherStops⟩
  · refine .inl ⟨(look .free (Cursor.start source)).place, children, _, ?_, ?_,
      isExtra_of_mem_passedComments unseen nothingPassed⟩
    · rw [sourceTree, childrenRead]
    · rw [longerTree, othersRead]
  · refine .inr ⟨stopped.inside .program, otherStopped.inside .program, ?_, ?_⟩
    · rw [sourceTree, stops]
    · rw [longerTree, otherStops]

/-- Behind a string statement no line may begin with `#!`. -/
theorem readTree_behind_string_stops (line : opensWithHashBang source = true) :
    ∃ stopped, readTree chars = .error stopped := by
  obtain ⟨_, unseen, _⟩ := atString.past
  have takesText := nextStatement_takes (nextStatement_string atString)
  have sameLine :
      (Text.afterPrefix? "#!".toList
        (look .free (((Cursor.start chars).pastString length).take 1)).rest).isSome = true := by
    obtain ⟨_, _, stands⟩ := look_behind_string atString areBlank
    rw [← stands.rest]
    exact line
  obtain ⟨stopped, stops⟩ := nextStatement_stops_hashBang unseen sameLine
  obtain ⟨fuel, fuelEqual⟩ : ∃ fuel, (Cursor.start chars).rest.length = fuel + 1 :=
    ⟨(Cursor.start chars).rest.length - 1, by rw [seen_rest] at takesText; omega⟩
  refine ⟨stopped.inside .program, ?_⟩
  rw [readTree_string atString, fuelEqual, statementsToEnd_of_error stops]

end StringFirst

/-! ## Shapes -/

open Shape (childrenField Fields)
open Shape.Tree (erase eraseItems get_eraseFields)

theorem entries?_comments
    (options : Options) (kind : Kind) (awaiting : Bool) {before : List Child}
    (onlyComments : ∀ child ∈ before, child.2.isExtra = true) (rest : List Seen) :
    entries? kind awaiting (seen options before ++ rest) = entries? kind awaiting rest := by
  induction before with
  | nil =>
      rfl
  | cons child before inductionHypothesis =>
      have isComment := sight_of_isExtra options (onlyComments child (by simp))
      have others := inductionHypothesis fun other isOther => onlyComments other (by simp [isOther])
      rw [seen_cons, List.cons_append, entries?, isComment, Sight.awaits, others]
      simp [Sight.entries?]

theorem eq_ok_of_toOption
    {α : Type} {result : Except Fault α} {value : α} (found : result.toOption = some value) :
    result = .ok value := by
  cases result with
  | error fault =>
      cases found
  | ok other =>
      exact congrArg Except.ok (Option.some.inj found)

/-- A string statement and comments before the children of a program make one
more statement of its shape, the first one. -/
theorem lowerChildren_behind_string
    {options : Options} {children before others : List Child} {fields : Fields}
    (lowered : lowerChildren options .program true children [] = .ok fields)
    (onlyComments : ∀ child ∈ before, child.2.isExtra = true)
    (sameChildren : unplacedChildren others = unplacedChildren children)
    (length : Nat) (cursor : Cursor) :
    ∃ longer,
      lowerChildren options .program true
          ((none, stringStatement length cursor) :: (before ++ others)) [] = .ok longer ∧
        eraseItems (Fields.get childrenField longer) =
          erase (stringShape (cursor.spelling (length + 1))).toTree ::
            eraseItems (Fields.get childrenField fields) := by
  have firstSeen :
      sight options (stringStatement length cursor) =
        .node false (some (some (erase (stringShape (cursor.spelling (length + 1))).toTree)))
          none := by
    rw [sight_of_isProper options rfl, outline?, lower_stringStatement]
    rfl
  have sameSeen : seen options others = seen options children := by
    rw [← seen_unplacedChildren, sameChildren, seen_unplacedChildren]
  have composed := lowerChildren_eq_entries options .program true children []
  rw [lowered] at composed
  obtain ⟨entries, entriesLeft, fieldsPushed⟩ := Option.map_eq_some_iff.mp composed.symm
  have extended := lowerChildren_eq_entries options .program true
    ((none, stringStatement length cursor) :: (before ++ others)) []
  rw [seen_cons, seen_append, entries?, firstSeen, entries?_comments options _ _ onlyComments,
    sameSeen, entries?_awaiting rfl _ _ true, entriesLeft] at extended
  obtain ⟨longer, loweredLonger, longerPushed⟩ := Option.map_eq_some_iff.mp extended
  refine ⟨longer, eq_ok_of_toOption loweredLonger, ?_⟩
  rw [← get_eraseFields, ← get_eraseFields, longerPushed, ← fieldsPushed]
  exact (get_pushAll_nil childrenField _).trans
    ((valuesIn_cons_self childrenField _ entries).trans
      (congrArg _ (get_pushAll_nil childrenField entries).symm))

theorem erase_stringShape (spelling : String) :
    erase (stringShape spelling).toTree = erase (stringShape "").toTree := by
  rfl

section Parsing

variable {options : Options} {text longer : String} {program : Shape.Node}
  {length : Nat} {blanks : List Char}
  (atString : (Cursor.start (Text.trimChars longer.toList)).AtString length
    (blanks ++ Text.trimChars text.toList))
  (areBlank : ∀ c ∈ blanks, isSpace c = true)

include atString areBlank

/-- A string statement before a source that reads is its first statement, and
the others stay. -/
theorem parse_behind_string
    (noLine : opensWithHashBang (Text.trimChars text.toList) = false)
    (parsed : parse options text = .ok program) :
    ∃ extended,
      parse options longer = .ok extended ∧
        eraseItems (extended.field childrenField) =
          erase (stringShape "").toTree :: eraseItems (program.field childrenField) := by
  obtain ⟨start, children, fields, treeRead, lowered, rfl⟩ := parse_eq_ok parsed
  obtain ⟨lead, _, ⟨_, _, before, sourceRead, longerRead, onlyComments⟩ | ⟨_, _, stops, _⟩⟩ :=
    readTree_behind_string atString areBlank noLine
  · rw [treeRead] at sourceRead
    cases sourceRead
    obtain ⟨longerFields, loweredLonger, oneMore⟩ :=
      lowerChildren_behind_string lowered onlyComments
        (unplacedChildren_childrenBehind lead children) length
        (Cursor.start (Text.trimChars longer.toList))
    refine ⟨⟨.program, longerFields, none⟩, ?_, ?_⟩
    · rw [parse_of_readTree longerRead, lowerProgram_branch, loweredLonger]
      rfl
    · rw [erase_stringShape] at oneMore
      exact oneMore
  · rw [treeRead] at stops
    cases stops

theorem parse_behind_string_fails
    (line : opensWithHashBang (Text.trimChars text.toList) = true) :
    ∃ fault, parse options longer = .error fault := by
  obtain ⟨stopped, stops⟩ := readTree_behind_string_stops atString areBlank line
  obtain ⟨place, explanation, malformed⟩ := parse_of_stopped stops options
  exact ⟨.malformed place explanation, malformed⟩

end Parsing

end ShapeAudit.Source
