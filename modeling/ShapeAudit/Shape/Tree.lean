import ShapeAudit.Shape.Kind
import ShapeAudit.Text

/-!
Shape trees. A node has a kind, named fields and, if it is lexical, the text it stands for. A field
holds a sequence of trees, and fields are kept in increasing order of their names. No positions are
stored, so nothing that compares shape trees can depend on them.
-/

namespace ShapeAudit.Shape

/-- A value in a field of a node: a node, a sequence of values, or a word such as an operator. -/
inductive Tree where
  | node (kind : Kind) (fields : List (String × List Tree)) (text : Option String)
  | list (items : List Tree)
  | word (value : String)

instance : Inhabited Tree := ⟨.word ""⟩

/-- The fields of a node, in increasing order of their names. -/
abbrev Fields := List (String × List Tree)

namespace Fields

/-- The values of a field, none if the field is absent. -/
def get (name : String) : Fields → List Tree
  | [] => []
  | (key, values) :: rest => if key = name then values else get name rest

/-- Whether a field is present, be it empty. -/
def has (name : String) : Fields → Bool
  | [] => false
  | (key, _) :: rest => key == name || has name rest

/-- Adds a value at the end of a field, which is made at its place if it is absent. -/
def push (name : String) (value : Tree) : Fields → Fields
  | [] => [(name, [value])]
  | (key, values) :: rest =>
    if key = name then (key, values ++ [value]) :: rest
    else if Text.lessThan name key then (name, [value]) :: (key, values) :: rest
    else (key, values) :: push name value rest

/-- Puts a whole field at its place, over one of the same name. -/
def put (name : String) (values : List Tree) : Fields → Fields
  | [] => [(name, values)]
  | (key, old) :: rest =>
    if key = name then (name, values) :: rest
    else if Text.lessThan name key then (name, values) :: (key, old) :: rest
    else (key, old) :: put name values rest

/-- Takes a field away. -/
def remove (name : String) : Fields → Fields
  | [] => []
  | (key, values) :: rest => if key = name then rest else (key, values) :: remove name rest

/-- The names of the fields. -/
def names (fields : Fields) : List String :=
  fields.map Prod.fst

end Fields

/-- A node of a shape tree. -/
structure Node where
  /-- What the node is. -/
  kind : Kind
  /-- Its fields, in increasing order of their names. -/
  fields : Fields := []
  /-- The text of a lexical node. -/
  text : Option String := none

namespace Node

instance : Inhabited Node := ⟨⟨.program, [], none⟩⟩

/-- A lexical node that stands for a text. -/
def leaf (kind : Kind) (text : String) : Node :=
  ⟨kind, [], some text⟩

/-- A node without fields and text. -/
def bare (kind : Kind) : Node :=
  ⟨kind, [], none⟩

/-- A node as a value of a field. -/
def toTree (node : Node) : Tree :=
  .node node.kind node.fields node.text

/-- Adds a value at the end of a field. -/
def push (node : Node) (field : String) (value : Tree) : Node :=
  { node with fields := Fields.push field value node.fields }

/-- The values of a field. -/
def field (node : Node) (name : String) : List Tree :=
  Fields.get name node.fields

end Node

/-! ## Views of a value -/

namespace Tree

/-- The node that a value is. -/
def asNode? : Tree → Option Node
  | .node kind fields text => some ⟨kind, fields, text⟩
  | _ => none

/-- The word that a value is. -/
def asWord? : Tree → Option String
  | .word value => some value
  | _ => none

mutual

/-- How many nodes a value holds. -/
def count : Tree → Nat
  | .node _ fields _ => 1 + countFields fields
  | .list items => countItems items
  | .word _ => 0

/-- How many nodes a sequence holds. -/
def countItems : List Tree → Nat
  | [] => 0
  | item :: rest => count item + countItems rest

/-- How many nodes the fields of a node hold. -/
def countFields : List (String × List Tree) → Nat
  | [] => 0
  | (_, items) :: rest => countItems items + countFields rest

end

mutual

/-- Whether two values are equal, texts included. -/
def agree : Tree → Tree → Bool
  | .node kindA fieldsA textA, .node kindB fieldsB textB =>
    kindA == kindB && textA == textB && agreeFields fieldsA fieldsB
  | .list a, .list b => agreeItems a b
  | .word a, .word b => a == b
  | _, _ => false

/-- Whether two sequences are equal. -/
def agreeItems : List Tree → List Tree → Bool
  | [], [] => true
  | a :: restA, b :: restB => agree a b && agreeItems restA restB
  | _, _ => false

/-- Whether two lists of fields are equal. -/
def agreeFields : List (String × List Tree) → List (String × List Tree) → Bool
  | [], [] => true
  | (nameA, a) :: restA, (nameB, b) :: restB =>
    nameA == nameB && agreeItems a b && agreeFields restA restB
  | _, _ => false

end

end Tree

namespace Node

/-- How many nodes the tree of a node has, the node itself included. -/
def count (node : Node) : Nat :=
  node.toTree.count

/-- The nodes in a field, other values skipped. -/
def childNodes (node : Node) (name : String) : List Node :=
  (node.field name).filterMap Tree.asNode?

end Node

/-- The field of the children that no field of the grammar names. -/
def childrenField : String := "children"

/-- The field of the keywords that tell otherwise equal nodes apart. -/
def tokensField : String := "tokens"

end ShapeAudit.Shape
