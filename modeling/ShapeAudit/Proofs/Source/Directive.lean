import ShapeAudit.Proofs.Source.Lowering
import ShapeAudit.Proofs.Source.Program

/-!
# A string literal before a semicolon

A source that begins with a double-quoted string and a semicolon behind it
reads with that string as its first statement, whatever follows the semicolon.
The cursor stands before a quote, and then before a semicolon, all the way
through the grammar; neither of the two is ever passed by, continues an
operand, or ends a statement.
-/

namespace ShapeAudit.Source

/-! ## Cursors at a sign -/

namespace Cursor

/-- The cursor once it is known that a token begins there. -/
def seen (cursor : Cursor) : Cursor :=
  { cursor with mark := .token }

/-- A quote or a semicolon follows the cursor at once, no comment has been
passed, and nothing else is known to stand there. -/
structure AtSign (sign : Char) (tail : List Char) (cursor : Cursor) : Prop where
  rest_eq : cursor.rest = sign :: tail
  sign_eq : sign = '"' ∨ sign = ';'
  mark_eq : cursor.mark = .unseen ∨ cursor.mark = .token
  passed_eq : cursor.passed = []

/-- A string follows the cursor at once, and a semicolon follows the string. -/
structure AtString (length : Nat) (after : List Char) (cursor : Cursor) : Prop where
  atQuote : cursor.AtSign '"' cursor.rest.tail
  length_eq : Lexeme.string cursor.rest = length + 1
  after_eq : cursor.rest.drop (length + 1) = ';' :: after

@[simp]
theorem seen_seen (cursor : Cursor) : cursor.seen.seen = cursor.seen := by
  rfl

@[simp]
theorem seen_place (cursor : Cursor) : cursor.seen.place = cursor.place := by
  rfl

theorem seen_rest (cursor : Cursor) : cursor.seen.rest = cursor.rest := by
  rfl

@[simp]
theorem spelling_seen (length : Nat) (cursor : Cursor) :
    cursor.seen.spelling length = cursor.spelling length := by
  rfl

theorem AtSign.seen
    {sign : Char} {tail : List Char} {cursor : Cursor}
    (atSign : cursor.AtSign sign tail) :
    cursor.seen.AtSign sign tail :=
  ⟨atSign.rest_eq, atSign.sign_eq, Or.inr rfl, atSign.passed_eq⟩

theorem AtString.seen
    {length : Nat} {after : List Char} {cursor : Cursor}
    (atString : cursor.AtString length after) :
    cursor.seen.AtString length after :=
  ⟨atString.atQuote.seen, atString.length_eq, atString.after_eq⟩

/-- Moving on drops characters and keeps the comments that have been passed. -/
theorem advance_fields (count : Nat) (cursor : Cursor) :
    (cursor.advance count).rest = cursor.rest.drop count ∧
      (cursor.advance count).mark = .unseen ∧
        (cursor.advance count).passed = cursor.passed := by
  induction count generalizing cursor with
  | zero =>
      exact ⟨rfl, rfl, rfl⟩
  | succ count inductionHypothesis =>
      obtain ⟨rest, place, passed, mark, taken⟩ := cursor
      cases rest with
      | nil =>
          exact ⟨by simp [advance], rfl, rfl⟩
      | cons c rest =>
          simpa [advance] using inductionHypothesis
            ⟨rest, placeAfter place c, passed, .unseen, taken⟩

theorem take_rest (length : Nat) (cursor : Cursor) :
    (cursor.take length).rest = cursor.rest.drop length :=
  (cursor.advance_fields length).1

/-- The cursor behind a string, once it is known that a token begins there. -/
def pastString (length : Nat) (cursor : Cursor) : Cursor :=
  (cursor.seen.take (length + 1)).seen

/-- Behind the string stands the semicolon. -/
theorem AtString.take
    {length : Nat} {after : List Char} {cursor : Cursor}
    (atString : cursor.AtString length after) :
    (cursor.take (length + 1)).AtSign ';' after := by
  obtain ⟨restEqual, unseen, passedEqual⟩ := cursor.advance_fields (length + 1)
  refine ⟨?_, Or.inr rfl, Or.inl unseen, ?_⟩
  · exact restEqual.trans atString.after_eq
  · exact passedEqual.trans atString.atQuote.passed_eq

/-- Behind the string and the semicolon stands what follows them. -/
theorem AtString.past
    {length : Nat} {after : List Char} {cursor : Cursor}
    (atString : cursor.AtString length after) :
    ((cursor.pastString length).take 1).rest = after ∧
      ((cursor.pastString length).take 1).mark = .unseen ∧
        ((cursor.pastString length).take 1).passed = [] := by
  have atSemicolon := atString.seen.take.seen
  obtain ⟨restEqual, unseen, passedEqual⟩ := (cursor.pastString length).advance_fields 1
  refine ⟨?_, unseen, passedEqual.trans atSemicolon.passed_eq⟩
  have behindString : (cursor.pastString length).rest = ';' :: after := atSemicolon.rest_eq
  rw [take_rest, behindString, List.drop_one, List.tail_cons]

end Cursor

open Cursor

/-! ## Looking ahead at a sign -/

section LookingAhead

variable {sign : Char} (isEither : sign = '"' ∨ sign = ';') (tail : List Char)

include isEither

theorem statementEnds_sign (operators : Bool) (fuel : Nat) :
    statementEnds operators (fuel + 1) false (sign :: tail) =
      ⟨false, false, sign :: tail⟩ := by
  rcases isEither with rfl | rfl <;>
    simp [statementEnds, isNul, isBreak, isWideBreak, isSpace]

theorem questionAt_sign : questionAt (sign :: tail) = none := by
  rcases isEither with rfl | rfl <;>
    simp [questionAt, isSpace]

theorem htmlComment?_sign : htmlComment? (sign :: tail) = none := by
  rcases isEither with rfl | rfl <;>
    simp [htmlComment?, Lexeme.run, Lexeme.piece, Text.afterPrefix?, isSpace, isWideBreak]

theorem word_sign : Lexeme.word (sign :: tail) = 0 := by
  rcases isEither with rfl | rfl <;>
    simp [Lexeme.word, Lexeme.wordTail, Text.isAsciiDigit, isWordPart, isSign]

theorem gapLength_sign (mode : Mode) : gapLength mode (sign :: tail) = 0 := by
  have noWord := word_sign isEither tail
  rcases isEither with rfl | rfl <;>
    simp [gapLength, Lexeme.run, Mode.isGap, isSeparator, isSpace, isWideSpace,
      isInvisible, isWideBreak, noWord, keywordsBehindBreak]

theorem comment_sign : Lexeme.comment (sign :: tail) = 0 := by
  rcases isEither with rfl | rfl <;>
    simp [Lexeme.comment]

end LookingAhead

/-- No mode passes a sign by or takes it for the end of a statement. -/
theorem look_sign
    {sign : Char} {tail : List Char} {cursor : Cursor}
    (atSign : cursor.AtSign sign tail) (mode : Mode) :
    look mode cursor = cursor.seen := by
  obtain ⟨restEqual, isEither, markKnown, _⟩ := atSign
  obtain ⟨rest, place, passed, mark, taken⟩ := cursor
  subst restEqual
  rcases markKnown with rfl | rfl
  · have undecided :
        decideMark mode ⟨sign :: tail, place, passed, .unseen, taken⟩ = none := by
      rcases isEither with rfl | rfl <;>
        simp [decideMark, statementEnds_sign, questionAt_sign]
    simp [look, lookFrom, undecided, htmlComment?_sign isEither,
      gapLength_sign isEither, comment_sign isEither, advance, seen]
  · simp [look, seen]

/-! ## Small readings at a sign -/

namespace Reading

section SmallReadings

variable {sign : Char} {tail : List Char} {cursor : Cursor}
  (atSign : cursor.AtSign sign tail)

include atSign

theorem ahead_sign : ahead cursor = .ok (sign :: tail, cursor.seen) := by
  simp [ahead, look_sign atSign, seen, atSign.rest_eq]

theorem peek_sign (mode : Mode) : peek mode cursor = .ok (.token, cursor.seen) := by
  simp [peek, look_sign atSign, seen]

theorem place_sign : place cursor = .ok (cursor.place, cursor.seen) := by
  simp [place, look_sign atSign]

theorem here_sign : here cursor.seen = .ok (sign :: tail, cursor.seen) := by
  simp [here, seen, atSign.rest_eq]

theorem comments_sign : comments cursor = .ok ([], cursor) := by
  obtain ⟨rest, place, passed, mark, taken⟩ := cursor
  obtain rfl : passed = [] := atSign.passed_eq
  rfl

theorem isNext_sign (spelling : String) :
    isNext spelling cursor =
      .ok ((Text.afterPrefix? spelling.toList (sign :: tail)).isSome, cursor.seen) := by
  simp [isNext, bind_apply, pure_apply, ahead_sign atSign]

theorem isHere_sign (spelling : String) :
    isHere spelling cursor.seen =
      .ok ((Text.afterPrefix? spelling.toList (sign :: tail)).isSome, cursor.seen) := by
  simp [isHere, bind_apply, pure_apply, here_sign atSign]

theorem nextWord_sign : nextWord cursor = .ok ("", cursor.seen) := by
  simp [nextWord, bind_apply, pure_apply, ahead_sign atSign, word_sign atSign.sign_eq]

theorem takeLeaf_sign (kind : Kind) (length : Nat) :
    takeLeaf kind length cursor =
      .ok ([(none, .leaf kind cursor.place (cursor.spelling length))],
        cursor.take length) := by
  obtain ⟨rest, place, passed, mark, taken⟩ := cursor
  obtain rfl : passed = [] := atSign.passed_eq
  rfl

theorem takeToken_sign (length : Nat) :
    takeToken length cursor =
      .ok ([(none, .token (cursor.spelling length))], cursor.take length) := by
  obtain ⟨rest, place, passed, mark, taken⟩ := cursor
  obtain rfl : passed = [] := atSign.passed_eq
  rfl

end SmallReadings

end Reading

namespace Grammar

open Reading

/-! ## The string as an operand -/

/-- The tree of a string that the cursor stands at. -/
def stringTree (length : Nat) (cursor : Cursor) : Tree :=
  .leaf .string cursor.place (cursor.spelling (length + 1))

/-- The tree of a string statement that the cursor stands at. -/
def stringStatement (length : Nat) (cursor : Cursor) : Tree :=
  .branch .expressionStatement cursor.place
    [(none, stringTree length cursor), (none, .token ";")]

@[simp]
theorem stringTree_seen (length : Nat) (cursor : Cursor) :
    stringTree length cursor.seen = stringTree length cursor := by
  rfl

section Operands

variable {length : Nat} {after : List Char} {cursor : Cursor}
  (atString : cursor.AtString length after)

include atString

theorem string_atString :
    string cursor =
      .ok ([(none, stringTree length cursor)], cursor.seen.take (length + 1)) := by
  have lengthEqual := atString.length_eq
  rw [atString.atQuote.rest_eq] at lengthEqual
  simp [string, bind_apply, ahead_sign atString.atQuote, lengthEqual,
    takeLeaf_sign atString.atQuote.seen, stringTree]

theorem primary_atString (descend : Descend) (context : Context) :
    primary descend context cursor =
      .ok ([(none, stringTree length cursor)], cursor.seen.take (length + 1)) := by
  simp [primary, bind_apply, ahead_sign atString.atQuote, string_atString atString.seen,
    stringTree]

end Operands

/-! ## Nothing goes on at the semicolon -/

section Semicolons

variable {after : List Char} {cursor : Cursor}
  (atSemicolon : cursor.AtSign ';' after)

include atSemicolon

theorem suffix_semicolon
    {base : Tree} (notImport : base.isA .importWord = false)
    (descend : Descend) (context : Context) (allowed : Suffixes) :
    suffix descend context allowed base cursor = .ok (none, cursor.seen) := by
  simp [suffix, bind_apply, pure_apply, peek_sign atSemicolon, here_sign atSemicolon,
    notImport]

theorem withSuffixes_semicolon
    {base : Tree} (notImport : base.isA .importWord = false)
    (descend : Descend) (context : Context) (allowed : Suffixes) :
    withSuffixes descend context allowed [(none, base)] cursor =
      .ok ([(none, base)], cursor.seen) := by
  have noStep :
      suffixes descend context allowed (cursor.rest.length + 1) base cursor =
        .ok (base, cursor.seen) := by
    simp [suffixes, bind_apply, pure_apply, suffix_semicolon atSemicolon notImport]
  exact bind_of_ok noStep

theorem withAssignment_semicolon
    (descend : Descend) (context : Context) (base : Tree) :
    withAssignment descend context [(none, base)] cursor =
      .ok ([(none, base)], cursor.seen) := by
  simp [withAssignment, splitLast, bind_apply, pure_apply, peek_sign atSemicolon,
    here_sign atSemicolon, assigns, assignmentOperators, Text.afterPrefix?]

theorem operatorsAfter_semicolon
    (descend : Descend) (level : Nat) (context : Context) (fuel : Nat) (left : Tree) :
    operatorsAfter descend level context (fuel + 1) left cursor =
      .ok (left, cursor.seen) := by
  simp [operatorsAfter, bind_apply, pure_apply, peek_sign atSemicolon,
    here_sign atSemicolon, operatorAt?, operators, Text.afterPrefix?]

theorem ending_semicolon (mode : Mode) :
    ending mode cursor =
      .ok ([(none, .token (cursor.spelling 1))], cursor.seen.take 1) := by
  simp [ending, bind_apply, peek_sign atSemicolon, isHere_sign atSemicolon,
    Text.afterPrefix?, takeToken_sign atSemicolon.seen]

end Semicolons

/-! ## The string as a statement -/

theorem declaration?_quote
    {tail : List Char} {cursor : Cursor} (atQuote : cursor.AtSign '"' tail)
    (descend : Descend) (beforeWhile : Bool) :
    declaration? descend beforeWhile cursor = .ok (none, cursor.seen) := by
  have noDecorator : isNext "@" cursor = .ok (false, cursor.seen) := by
    simp [isNext_sign atQuote, Text.afterPrefix?]
  have noWord : nextWord cursor.seen = .ok ("", cursor.seen) :=
    nextWord_sign atQuote.seen
  -- The empty word is none of the keywords, which holds by evaluation alone;
  -- simplifying would open every declaration first.
  exact (bind_of_ok noDecorator).trans ((bind_of_ok noWord).trans rfl)

theorem wordStatement_quote
    {tail : List Char} {cursor : Cursor} (atQuote : cursor.AtSign '"' tail)
    (descend : Descend) (beforeWhile : Bool) :
    wordStatement descend beforeWhile "" cursor =
      expressionStatement descend cursor.seen := by
  have noDeclaration := declaration?_quote atQuote descend beforeWhile
  exact (bind_of_ok noDeclaration).trans rfl

/-- No statement but an expression begins with a quote. -/
theorem statement_quote
    {tail : List Char} {cursor : Cursor} (atQuote : cursor.AtSign '"' tail)
    (descend : Descend) (beforeWhile : Bool) :
    statement descend beforeWhile cursor =
      expressionStatement descend cursor.seen := by
  simp [statement, bind_apply, ahead_sign atQuote, nextWord_sign atQuote.seen,
    wordStatement_quote atQuote.seen]

section Statements

variable {length : Nat} {after : List Char} {cursor : Cursor}
  (atString : cursor.AtString length after)

include atString

theorem operand_atString (descend : Descend) (updates : Bool) (context : Context) :
    operand descend updates context cursor =
      .ok ([(none, stringTree length cursor)], cursor.pastString length) := by
  have atSemicolon := atString.seen.take
  have notImport : (stringTree length cursor).isA .importWord = false := by
    rfl
  have settled : isSettled (stringTree length cursor) = true := by
    simp [stringTree, isSettled]
  have notArrow : isClosedArrow (stringTree length cursor) = false := by
    rfl
  simp [operand, pastString, bind_apply, pure_apply, ahead_sign atString.atQuote,
    nextWord_sign atString.atQuote.seen, primary_atString atString.seen, notArrow,
    withSuffixes_semicolon atSemicolon notImport, notImport,
    withAssignment_semicolon atSemicolon.seen, settled, require]

theorem expression_atString (depth level : Nat) (context : Context) :
    expression (reach (depth + 1)) level context cursor =
      .ok ([(none, stringTree length cursor)], cursor.pastString length) := by
  have atSemicolon := atString.seen.take
  -- Each goal takes one step of the depth: the expression is read with the
  -- operands one step below it.
  have operandRead := operand_atString atString (reach depth) true
    { context with withoutIn := false }
  have noOperator := operatorsAfter_semicolon atSemicolon.seen (reach (depth + 1)) level
    context (cursor.seen.take (length + 1)).rest.length (stringTree length cursor)
  exact (bind_of_ok operandRead).trans (bind_of_ok noOperator)

theorem expressions_atString (depth : Nat) (context : Context) :
    expressions (reach (depth + 2)) context cursor =
      .ok ([(none, stringTree length cursor)], cursor.pastString length) := by
  have atSemicolon := atString.seen.take
  have expressionRead :
      reach (depth + 2) (.expression 0 context) cursor =
        .ok ([(none, stringTree length cursor)], cursor.pastString length) :=
    expression_atString atString depth 0 context
  simp [expressions, pastString, bind_apply, pure_apply, expressionRead, repeated, many,
    peek_sign atSemicolon.seen, isHere_sign atSemicolon, Text.afterPrefix?]

theorem expressionStatement_atString (depth : Nat) :
    expressionStatement (reach (depth + 3)) cursor =
      .ok ([(none, stringStatement length cursor)], (cursor.pastString length).take 1) := by
  have atSemicolon := atString.seen.take
  have expressionsRead :
      reach (depth + 3) (.expressions .tail) cursor.seen =
        .ok ([(none, stringTree length cursor)], cursor.pastString length) :=
    expressions_atString atString.seen depth .tail
  have semicolonSpelt : (cursor.seen.take (length + 1)).spelling 1 = ";" := by
    simp [spelling, atSemicolon.rest_eq]
  have partsRead :
      inTurn [reach (depth + 3) (.expressions .tail), ending .tail] cursor.seen =
        .ok ([(none, stringTree length cursor), (none, .token ";")],
          (cursor.pastString length).take 1) := by
    simp [inTurn, pastString, bind_apply, pure_apply, expressionsRead,
      ending_semicolon atSemicolon.seen, semicolonSpelt]
  rw [expressionStatement, node, bind_of_ok (place_sign atString.atQuote),
    bind_of_ok (comments_sign atString.atQuote.seen), bind_of_ok (inside_of_ok partsRead)]
  rfl

/-- A string before a semicolon is a statement, and reading goes on behind the
semicolon. -/
theorem statement_atString (depth : Nat) :
    reach (depth + 4) (.statement false) cursor =
      .ok ([(none, stringStatement length cursor)], (cursor.pastString length).take 1) := by
  have isExpression :=
    statement_quote atString.atQuote (reach (depth + 3)) false
  exact isExpression.trans (expressionStatement_atString atString.seen depth)

end Statements

/-! ## The string as the first statement of a program -/

theorem hashBang_quote
    {tail : List Char} {cursor : Cursor} (atQuote : cursor.AtSign '"' tail) :
    hashBang cursor = .ok ([], cursor.seen) := by
  simp [hashBang, bind_apply, pure_apply, ahead_sign atQuote, Text.afterPrefix?]

theorem nextStatement_atString
    {length : Nat} {after : List Char} {cursor : Cursor}
    (atString : cursor.AtString length after) :
    nextStatement cursor =
      .ok (some [(none, stringStatement length cursor)],
        (cursor.pastString length).take 1) := by
  have notEmpty : cursor.seen.rest.isEmpty = false := by
    rw [atString.atQuote.seen.rest_eq]
    rfl
  have statementRead :
      (reach (8 * cursor.seen.rest.length + 8) (.statement false) cursor.seen).mapError
          (Stop.since cursor.seen) =
        .ok ([(none, stringStatement length cursor)], (cursor.pastString length).take 1) := by
    rw [statement_atString atString.seen (8 * cursor.seen.rest.length + 4)]
    rfl
  have takesText :
      ((cursor.pastString length).take 1).rest.length < cursor.seen.rest.length := by
    have remaining : cursor.rest.length - (length + 1) = after.length + 1 := by
      rw [← List.length_drop, atString.after_eq, List.length_cons]
    rw [atString.past.1, seen_rest]
    omega
  rw [nextStatement, bind_of_ok (ahead_sign atString.atQuote),
    bind_of_ok (show Reading.cursor cursor.seen = .ok (cursor.seen, cursor.seen) from rfl),
    if_neg (by simp [notEmpty]), bind_of_ok (comments_sign atString.atQuote.seen)]
  refine (bind_of_ok statementRead).trans ?_
  simp [Reading.cursor, require, bind_apply, pure_apply, takesText]

/-- A program that begins with a string and a semicolon has the string as its
first statement. -/
theorem program_atString
    {length : Nat} {after : List Char} {cursor later : Cursor}
    {children : List Child}
    (atString : cursor.AtString length after)
    (programRead : program cursor = .ok (children, later)) :
    ∃ others,
      children = [(none, .branch .program cursor.place
        ((none, stringStatement length cursor) :: others))] := by
  rw [program, node, bind_of_ok (place_sign atString.atQuote),
    bind_of_ok (comments_sign atString.atQuote.seen)] at programRead
  obtain ⟨inner, between, innerRead, joined⟩ := bind_eq_ok programRead
  cases joined
  have partsRead := inside_eq_ok innerRead
  rw [bind_of_ok (hashBang_quote atString.atQuote.seen)] at partsRead
  obtain ⟨statements, _, statementsRead, rest⟩ := bind_eq_ok partsRead
  obtain ⟨trailing, _, _, joined⟩ := bind_eq_ok rest
  cases joined
  obtain ⟨others, rfl⟩ :=
    many_of_some (nextStatement_atString atString.seen) statementsRead
  exact ⟨others ++ trailing, by simp [stringStatement]⟩

end Grammar

/-! ## Sources -/

theorem readTree_atString
    {length : Nat} {chars after : List Char} {tree : Tree}
    (atString : (Cursor.start chars).AtString length after)
    (treeRead : readTree chars = .ok tree) :
    ∃ others,
      tree = .branch .program ⟨1, 1⟩
        ((none, Grammar.stringStatement length (Cursor.start chars)) :: others) := by
  unfold readTree at treeRead
  split at treeRead
  · rename_i children later programRead
    obtain ⟨others, rfl⟩ := Grammar.program_atString atString programRead
    cases treeRead
    exact ⟨others, rfl⟩
  · cases treeRead

/-- The shape of a string that is a statement of its own. -/
def stringShape (spelling : String) : Shape.Node :=
  (Shape.Node.bare .expressionStatement).push Shape.childrenField
    (Shape.Node.leaf .literal spelling).toTree

theorem lower_stringStatement
    (options : Options) (length : Nat) (cursor : Cursor) :
    lower options (Grammar.stringStatement length cursor) =
      .ok (some (stringShape (cursor.spelling (length + 1)))) := by
  simp [Grammar.stringStatement, Grammar.stringTree, lower, lowerChildren, shapeOf,
    Kind.shape?, Shape.Kind.isJsx, Shape.Kind.isLexical, Kind.isArray, Kind.isObject,
    Tree.isExtra, Tree.kind?, Kind.isExtra, isKeptKeyword, Text.isAsciiLetter, settle,
    Shape.Fields.push, bind, Except.bind, pure, Except.pure, stringShape,
    Shape.Node.push, Shape.Node.bare]

/-- A source that begins with a string and a semicolon has the shape of the
string as its first statement. -/
theorem parse_atString
    {options : Options} {text : String} {node : Shape.Node}
    {length : Nat} {after : List Char}
    (atString : (Cursor.start (Text.trimChars text.toList)).AtString length after)
    (parsed : parse options text = .ok node) :
    ∃ spelling others,
      node.field Shape.childrenField = (stringShape spelling).toTree :: others := by
  obtain ⟨start, children, fields, treeRead, lowered, rfl⟩ := parse_eq_ok parsed
  obtain ⟨others, treeEqual⟩ := readTree_atString atString treeRead
  injection treeEqual with _ _ childrenEqual
  subst childrenEqual
  rw [lowerChildren_of_lower rfl rfl (lower_stringStatement options length _)] at lowered
  obtain ⟨rest, fieldEqual⟩ :=
    lowerChildren_extends (Shape.Fields.ascending_push Shape.Fields.ascending_nil _ _)
      lowered Shape.childrenField
  exact ⟨_, rest, fieldEqual.symm⟩

end ShapeAudit.Source
