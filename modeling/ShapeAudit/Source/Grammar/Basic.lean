import ShapeAudit.Source.Pattern
import ShapeAudit.Source.Reading

/-!
What the parts of the grammar share: the goals that refer to one another, what is known of the
surroundings of an expression, and small readings that occur in many constructs.
-/

namespace ShapeAudit.Source.Grammar

open Reading

/-- The surroundings of an expression. -/
structure Context where
  /-- The statement may end with the expression. -/
  ends : Bool := false
  /-- The operator `in` belongs to the surroundings. -/
  withoutIn : Bool := false
  /-- A literal may still turn out to be a pattern. -/
  mayStayOpen : Bool := false
  deriving DecidableEq

namespace Context

/-- An expression inside brackets or between separators. -/
def inner : Context := {}

/-- An expression that a statement may end with. -/
def tail : Context := { ends := true }

/-- An element of something that may turn out to be a pattern. -/
def element : Context := { mayStayOpen := true }

/-- What may follow an expression in these surroundings. -/
def mode (context : Context) : Mode :=
  if context.ends then .tail else .inner

/-- The surroundings of an operand after the first. -/
def operand (context : Context) : Context := { ends := context.ends }

end Context

/-- The constructs that contain one another. -/
inductive Goal where
  /-- A statement; the flag tells that it is followed by the `while` of a loop and nothing else. -/
  | statement (beforeWhile : Bool)
  /-- Expressions with commas between them. -/
  | expressions (context : Context)
  /-- An expression whose operators bind at least as tightly as a level. -/
  | expression (level : Nat) (context : Context)
  /-- An operand; the flag tells whether `++` and `--` may follow it. -/
  | operand (updates : Bool) (context : Context)
  /-- What `new` is applied to. -/
  | constructed (context : Context)
  /-- An object or array literal, open or not. -/
  | literal
  | jsxElement

/-- How a construct reads the constructs in it. -/
abbrev Descend := Goal → Reading (List Child)

/-! ## Small readings -/

/-- Stops unless a condition holds. -/
def require (condition : Bool) (wanted : Wanted) : Reading Unit :=
  if condition then pure () else stop wanted

/-- Reads a token if it stands next. -/
def optional (spelling : String) : Reading (List Child) := do
  onlyIf (← isNext spelling) (takeToken spelling.length)

/-- Reads the end of a statement: a semicolon, or nothing where it may be left out. -/
def ending (mode : Mode) : Reading (List Child) := do
  match ← peek mode with
  | .semicolon => do
    consumeMark
    return []
  | .token =>
    if ← isHere ";" then takeToken 1 else stop .ending
  | _ => stop .ending

/-- Reads a string. -/
def string : Reading (List Child) := do
  let chars ← ahead
  match Lexeme.string chars with
  | 0 => stop .operand
  | length => takeLeaf .string length

/-- Reads a number. -/
def number : Reading (List Child) := do
  let chars ← ahead
  match Lexeme.number chars with
  | 0 => stop .operand
  | length => takeLeaf .number length

/-- Reads a private name. -/
def privateName : Reading (List Child) := do
  let chars ← ahead
  match Lexeme.privateName chars with
  | 0 => stop .operand
  | length => takeLeaf .privatePropertyIdentifier length

/-- One expression between separators. -/
def innerExpression (descend : Descend) : Reading (List Child) :=
  descend (.expression 0 .inner)

/-- The place of a tree. -/
def placeOf : Tree → Place
  | .token _ => ⟨0, 0⟩
  | .leaf _ place _ => place
  | .branch _ place _ => place

/-- Puts a construct around children of which the last one that has been read begins it. -/
def around (kind : Kind) (before : List Child) (first : Tree) (children : List Child) :
    List Child :=
  before ++ [(none, .branch kind (placeOf first) children)]

/-- Reads a construct whose kind shows only while it is read. -/
def construct (reading : Reading (Kind × List Child)) : Reading (List Child) := do
  let start ← place
  let before ← comments
  let (kind, children) ← reading
  return before ++ [(none, .branch kind start children)]

/-- Reads items with commas between them up to a closing token. An item may be left out where the
flag allows it; a comma after the last item is always allowed. -/
def listed (closing : String) (gaps : Bool) (item : Reading (List Child)) :
    Reading (List Child) := do
  let items ← repeated do
    if ← isNext closing then return none
    else if gaps && (← isNext ",") then return some (← token ",")
    else
      let children ← item
      if ← isNext closing then return some children
      else return some (children ++ (← token ","))
  return items ++ (← token closing)

/-! ## Parts of patterns -/

/-- Reads something that has to be a target, and turns it into one. -/
def asTarget (reading : Reading (List Child)) : Reading (List Child) := do
  let start ← cursor
  let (before, tree) := splitLast (← reading)
  match toPattern? .target tree with
  | some pattern => return before ++ [(none, pattern)]
  | none => fun _ => .error (.here start .operand)

/-! ## Blocks -/

/-- What may follow the closing brace of a block. The end of a statement belongs to the block, so
nothing is known of what follows it. -/
def afterBlock (mode : Mode) : Reading Unit := do
  if (← peek mode) = .semicolon then consumeMark

/-- Reads statements up to a closing brace. -/
def statements (descend : Descend) : Reading (List Child) :=
  repeated do
    if ← isNext "\x7d" then return none
    else return some (← descend (.statement false))

/-- Reads a block. -/
def block (descend : Descend) (mode : Mode) : Reading (List Child) := do
  let children ← node .statementBlock do
    inTurn [token "\x7b", statements descend, token "\x7d"]
  afterBlock mode
  return children

end ShapeAudit.Source.Grammar
