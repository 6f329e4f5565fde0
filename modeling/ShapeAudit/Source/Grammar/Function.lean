import ShapeAudit.Source.Grammar.Basic

/-!
Arguments, parameters, functions and decorators.
-/

namespace ShapeAudit.Source.Grammar

open Reading

/-! ## Elements -/

/-- Reads an expression or a spread expression. -/
def element (descend : Descend) (context : Context) : Reading (List Child) := do
  if ← isNext "..." then
    node .spreadElement do
      inTurn [token "...", descend (.expression 0 context)]
  else descend (.expression 0 context)

/-- Reads the arguments of a call, any of which may be left out. -/
def arguments (descend : Descend) (context : Context) : Reading (List Child) :=
  node .arguments do
    inTurn [token "(", listed ")" true (element descend context)]

/-- Reads one parameter: a pattern, perhaps with a default. -/
def parameter (descend : Descend) : Reading (List Child) := do
  let start ← cursor
  let (before, tree) := splitLast (← element descend .element)
  match toPattern? .element tree with
  | some pattern => return before ++ [(none, pattern)]
  | none => fun _ => .error (.here start .operand)

/-- Reads the parameters of a function. -/
def parameters (descend : Descend) : Reading (List Child) :=
  node .formalParameters do
    inTurn [token "(", listed ")" false (parameter descend)]

/-- Reads the name of something that is declared: a word, or a pattern of an object or array. -/
def binding (descend : Descend) : Reading (List Child) := do
  if (← isNext "\x7b") || (← isNext "[") then
    asTarget (descend .literal)
  else word .identifier

/-! ## Functions -/

/-- A function as it has been read: whether it is a generator, whether it has a name, and its
children. -/
structure FunctionParts where
  generator : Bool
  named : Bool
  children : List Child

/-- Reads a function from `async` or `function` on. -/
def functionParts (descend : Descend) : Reading FunctionParts := do
  let mark ← optional "async"
  let keyword ← token "function"
  let generator ← isNext "*"
  let star ← optional "*"
  let named := (← nextWord) ≠ ""
  let name ← onlyIf named (field "name" (word .identifier))
  let signature ← field "parameters" (parameters descend)
  let body ← field "body" (block descend .tail)
  return ⟨generator, named, mark ++ keyword ++ star ++ name ++ signature ++ body⟩

/-- Reads a function as an expression. -/
def functionExpression (descend : Descend) : Reading (List Child) :=
  construct do
    let parts ← functionParts descend
    return (if parts.generator then .generatorFunction else .functionExpression, parts.children)

/-! ## Decorators -/

/-- Reads the further names of a decorator. -/
def decoratorNames : Nat → List Child → Tree → Reading (List Child)
  | 0, before, first => pure (before ++ [(none, first)])
  | fuel + 1, before, first => do
    if ← isNext "." then
      let point ← token "."
      let property ← field "property" (word .propertyIdentifier)
      decoratorNames fuel before
        (.branch .memberExpression (placeOf first) ((some "object", first) :: point ++ property))
    else return before ++ [(none, first)]

/-- Reads a decorator: names with points between them, perhaps called. -/
def decorator (descend : Descend) : Reading (List Child) :=
  node .decorator do
    let sign ← token "@"
    let (before, first) := splitLast (← word .identifier)
    let (_, named) := splitLast (← fun cursor =>
      decoratorNames (cursor.rest.length + 1) before first cursor)
    if ← isNext "(" then
      let called ← field "arguments" (arguments descend .inner)
      return sign ++ around .callExpression before named ((some "function", named) :: called)
    else return sign ++ before ++ [(none, named)]

/-- Reads all decorators that stand next. -/
def decorators (descend : Descend) : Reading (List Child) :=
  field "decorator" <| repeated do
    if ← isNext "@" then return some (← decorator descend) else return none

end ShapeAudit.Source.Grammar
