import ShapeAudit.Source.Lookahead

/-!
Reading a source from left to right. A reading takes a cursor and gives a result and a later cursor,
or stops. The result of reading a construct is a list of children for the construct around it: the
comments that precede it, and then the construct itself.
-/

namespace ShapeAudit.Source

/-- What was missing where reading stopped. -/
inductive Wanted where
  /-- An expression or another operand. -/
  | operand
  /-- A statement. -/
  | statement
  /-- A certain token. -/
  | token (spelling : String)
  /-- The end of a statement. -/
  | ending
  deriving DecidableEq

/-- Where reading stopped and what it wanted there. -/
structure Stop where
  rest : List Char
  place : Place
  wanted : Wanted
  /-- The tokens that were taken before, the latest first. -/
  taken : List Taken
  /-- The constructs that were being read, the outermost first. -/
  within : List Kind := []
  /-- Where the statement of the program begins that was being read. -/
  statement : Option Cursor := none

namespace Stop

/-- A stop at a cursor. -/
def here (cursor : Cursor) (wanted : Wanted) : Stop :=
  { rest := cursor.rest, place := cursor.place, wanted := wanted, taken := cursor.taken }

/-- A stop inside a construct. -/
def inside (kind : Kind) (stop : Stop) : Stop :=
  { stop with within := kind :: stop.within }

/-- A stop inside a statement of the program. -/
def since (start : Cursor) (stop : Stop) : Stop :=
  { stop with statement := some start }

/-- Whether reading stopped because the source ended. -/
def atEnd (stop : Stop) : Bool :=
  stop.rest.isEmpty

/-- The later of two stops, the first if they are at one place. -/
def later (a b : Stop) : Stop :=
  if a.rest.length ≤ b.rest.length then a else b

end Stop

/-- A step of reading. -/
def Reading (α : Type) : Type :=
  Cursor → Except Stop (α × Cursor)

namespace Reading

instance : Monad Reading where
  pure value := fun cursor => .ok (value, cursor)
  bind reading next := fun cursor =>
    match reading cursor with
    | .ok (value, later) => next value later
    | .error stop => .error stop

instance {α : Type} : Inhabited (Reading α) :=
  ⟨fun cursor => .error (.here cursor .operand)⟩

/-! ## The cursor -/

/-- Stops here. -/
def stop {α : Type} (wanted : Wanted) : Reading α :=
  fun cursor => .error (.here cursor wanted)

/-- The cursor. -/
def cursor : Reading Cursor :=
  fun cursor => .ok (cursor, cursor)

/-- Goes to the next token and tells what is known of it. -/
def peek (mode : Mode) : Reading Mark :=
  fun cursor =>
    let next := Source.look mode cursor
    .ok (next.mark, next)

/-- Goes to the next token, where no statement and no expression has ended, and gives the text from
there on. Where a semicolon has been left out or a question mark stands, no token can be read. -/
def ahead : Reading (List Char) :=
  fun cursor =>
    let next := Source.look .free cursor
    .ok (if next.mark = .token then next.rest else [], next)

/-- The text that follows a cursor that is known to be at a token, and nothing elsewhere. -/
def here : Reading (List Char) :=
  fun cursor => .ok (if cursor.mark = .token then cursor.rest else [], cursor)

/-- Takes the comments that have been passed. -/
def comments : Reading (List Child) :=
  fun cursor => .ok (cursor.passed.reverse.map fun tree => (none, tree), { cursor with passed := [] })

/-- Forgets a semicolon that has been left out, which ends what was being read. -/
def consumeMark : Reading Unit :=
  fun cursor => .ok ((), { cursor with mark := .unseen })

/-- The place of the next token. -/
def place : Reading Place :=
  fun cursor =>
    let next := Source.look .free cursor
    .ok (next.place, next)

/-! ## Tokens -/

/-- Reads a number of characters as a token. -/
def takeToken (length : Nat) : Reading (List Child) := do
  let before ← comments
  fun cursor =>
    .ok (before ++ [(none, .token (cursor.spelling length))], cursor.take length)

/-- Reads a number of characters as a leaf. -/
def takeLeaf (kind : Kind) (length : Nat) : Reading (List Child) := do
  let before ← comments
  fun cursor =>
    .ok (before ++ [(none, .leaf kind cursor.place (cursor.spelling length))],
      cursor.take length)

/-- Whether a text stands next, as a token or as the beginning of a longer one. -/
def isNext (spelling : String) : Reading Bool := do
  let chars ← ahead
  return (Text.afterPrefix? spelling.toList chars).isSome

/-- Whether a text stands next, where it is known whether a token does. -/
def isHere (spelling : String) : Reading Bool := do
  let chars ← here
  return (Text.afterPrefix? spelling.toList chars).isSome

/-- Passes blanks where no word may begin, so that a wide line break is one of them. -/
def passBreaks : Reading Unit :=
  fun cursor =>
    if cursor.mark = .token && cursor.rest.head?.any isWideBreak then
      .ok ((), Source.look .inner { cursor with mark := .unseen })
    else .ok ((), cursor)

/-- Reads a token that has to stand next. -/
def token (spelling : String) : Reading (List Child) := do
  let _ ← ahead
  passBreaks
  if ← isHere spelling then takeToken spelling.length
  else stop (.token spelling)

/-- The word that stands next, the empty text if none does. -/
def nextWord : Reading String := do
  let chars ← ahead
  return String.ofList (chars.take (Lexeme.word chars))

/-- Whether a word stands next, on its own and not as a part of a longer one. -/
def isWord (spelling : String) : Reading Bool := do
  let found ← nextWord
  return found == spelling

/-- Reads any word as a leaf. -/
def word (kind : Kind) : Reading (List Child) := do
  let chars ← ahead
  match Lexeme.word chars with
  | 0 => stop .operand
  | length => takeLeaf kind length

/-! ## Constructs -/

/-- Puts children into a field, except comments and those that are in a field already. -/
def inField (name : String) (children : List Child) : List Child :=
  children.map fun (field, tree) =>
    if field.isSome || tree.isExtra then (field, tree) else (some name, tree)

/-- Reads something into a field. -/
def field (name : String) (reading : Reading (List Child)) : Reading (List Child) := do
  let children ← reading
  return inField name children

/-- Notes that reading stops inside a construct, if it does. -/
def inside {α : Type} (kind : Kind) (reading : Reading α) : Reading α :=
  fun cursor => (reading cursor).mapError (Stop.inside kind)

/-- Reads a construct with the given children. -/
def node (kind : Kind) (reading : Reading (List Child)) : Reading (List Child) := do
  let start ← place
  let before ← comments
  let children ← inside kind reading
  return before ++ [(none, .branch kind start children)]

/-- Reads one thing after the other. -/
def inTurn : List (Reading (List Child)) → Reading (List Child)
  | [] => pure []
  | first :: rest => do
    let children ← first
    let others ← inTurn rest
    return children ++ others

/-- Reads something if a condition holds. -/
def onlyIf (condition : Bool) (reading : Reading (List Child)) : Reading (List Child) :=
  if condition then reading else pure []

/-- Reads again and again until a reading gives nothing. -/
def many (reading : Reading (Option (List Child))) : Nat → Reading (List Child)
  | 0 => pure []
  | fuel + 1 => do
    match ← reading with
    | none => pure []
    | some children =>
      let others ← many reading fuel
      return children ++ others

/-- Reads as often as the text that is left can last. -/
def repeated (reading : Reading (Option (List Child))) : Reading (List Child) :=
  fun cursor => many reading (cursor.rest.length + 1) cursor

/-- Reads the first way and, if that stops before the end of the source, the second way. If both
stop, the later stop counts. -/
def orElse {α : Type} (first second : Reading α) : Reading α :=
  fun cursor =>
    match first cursor with
    | .ok result => .ok result
    | .error early =>
      if early.atEnd then .error early
      else match second cursor with
        | .ok result => .ok result
        | .error other => .error (early.later other)

/-- What a reading would give, without moving. -/
def attempt {α : Type} (reading : Reading α) : Reading (Except Stop (α × Cursor)) :=
  fun cursor => .ok (reading cursor, cursor)

/-- Goes on from where an attempt ended. -/
def resume (later : Cursor) : Reading Unit :=
  fun _ => .ok ((), later)

/-- The constructs read so far but the last, and the last one. -/
def splitLast (children : List Child) : List Child × Tree :=
  (children.dropLast, (children.getLast?.map Prod.snd).getD default)

end Reading

end ShapeAudit.Source
