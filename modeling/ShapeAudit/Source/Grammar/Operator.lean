import ShapeAudit.Source.Grammar.Operand

/-!
Expressions with operators between their operands. Every operator has a level, and an operator of a
higher level binds more tightly. A conditional expression has the lowest level, together with `??`.
-/

namespace ShapeAudit.Source.Grammar

open Reading

/-- An operator between two operands. -/
structure Operator where
  spelling : String
  level : Nat
  /-- Whether the operators of this level are grouped from the right. -/
  fromRight : Bool := false

/-- The operators, those first that begin with others. -/
def operators : List Operator :=
  [⟨">>>", 9, false⟩, ⟨"===", 6, false⟩, ⟨"!==", 6, false⟩, ⟨"&&", 2, false⟩, ⟨"||", 1, false⟩,
    ⟨"??", 0, false⟩, ⟨">>", 9, false⟩, ⟨"<<", 9, false⟩, ⟨"**", 12, true⟩, ⟨"<=", 7, false⟩,
    ⟨">=", 7, false⟩, ⟨"==", 6, false⟩, ⟨"!=", 6, false⟩, ⟨"&", 5, false⟩, ⟨"^", 4, false⟩,
    ⟨"|", 3, false⟩, ⟨"+", 10, false⟩, ⟨"-", 10, false⟩, ⟨"*", 11, false⟩, ⟨"/", 11, false⟩,
    ⟨"%", 11, false⟩, ⟨"<", 7, false⟩, ⟨">", 7, false⟩, ⟨"instanceof", 7, false⟩, ⟨"in", 7, false⟩]

/-- The operator that a text begins with. -/
def operatorAt? (chars : List Char) : Option Operator :=
  operators.find? fun operator => (Text.afterPrefix? operator.spelling.toList chars).isSome

/-- Reads the rest of a conditional expression from its question mark on. -/
def conditionalTail (descend : Descend) (context : Context) : Reading (List Child) := do
  let question ← takeToken 1
  let consequence ← field "consequence" (innerExpression descend)
  let _ ← peek .inner
  let colon ← token ":"
  let alternative ← field "alternative" (descend (.expression 0 context.operand))
  return question ++ consequence ++ colon ++ alternative

/-- Reads the operators behind an expression that has been read. -/
def operatorsAfter (descend : Descend) (level : Nat) (context : Context) :
    Nat → Tree → Reading Tree
  | 0, left => pure left
  | fuel + 1, left => do
    match ← peek context.mode with
    | .question =>
      if level = 0 then
        require (isSettled left) .operand
        let tail ← conditionalTail descend context
        operatorsAfter descend level context fuel
          (.branch .ternaryExpression (placeOf left) ((some "condition", left) :: tail))
      else pure left
    | .token =>
      match operatorAt? (← here) with
      | none => pure left
      | some operator =>
        if operator.level < level || (context.withoutIn && operator.spelling = "in") then pure left
        else
          require (isSettled left) .operand
          let sign ← field "operator" (takeToken operator.spelling.length)
          let bound := if operator.fromRight then operator.level else operator.level + 1
          let right ← field "right" (descend (.expression bound context.operand))
          operatorsAfter descend level context fuel
            (.branch .binaryExpression (placeOf left) ((some "left", left) :: sign ++ right))
    | _ => pure left

/-- Reads an expression whose operators have at least a level. -/
def expression (descend : Descend) (level : Nat) (context : Context) : Reading (List Child) := do
  let (before, left) := splitLast (← descend (.operand true { context with withoutIn := false }))
  let tree ← fun cursor =>
    operatorsAfter descend level context (cursor.rest.length + 1) left cursor
  return before ++ [(none, tree)]

/-- Reads expressions with commas between them. -/
def expressions (descend : Descend) (context : Context) : Reading (List Child) := do
  let first ← descend (.expression 0 context)
  let (before, tree) := splitLast first
  let others ← repeated do
    let mark ← peek context.mode
    if mark = .token && (← isHere ",") then
      return some ((← takeToken 1) ++ (← descend (.expression 0 context)))
    else return none
  if others.isEmpty then return first
  else return around .sequenceExpression before tree ((none, tree) :: others)

end ShapeAudit.Source.Grammar
