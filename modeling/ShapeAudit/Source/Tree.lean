import ShapeAudit.Source.Kind
import ShapeAudit.Text

/-!
Concrete trees. A tree keeps every token of its source except blanks: a token without a kind of its
own (a keyword, a bracket, an operator) is its spelling, a leaf is a word, a literal or a comment
with its spelling, and a branch has children, each in a named field or in none.
-/

namespace ShapeAudit.Source

/-- A place in a source: a line and a column of octets, both counted from one. -/
structure Place where
  line : Nat
  column : Nat
  deriving DecidableEq

namespace Place

/-- A place as it is written in messages. -/
def text (place : Place) : String :=
  Text.decimal place.line ++ ":" ++ Text.decimal place.column

end Place

/-- A concrete tree. -/
inductive Tree where
  | token (spelling : String)
  | leaf (kind : Kind) (place : Place) (spelling : String)
  | branch (kind : Kind) (place : Place) (children : List (Option String × Tree))

/-- A tree and the field of its parent that it is in. -/
abbrev Child := Option String × Tree

namespace Tree

instance : Inhabited Tree := ⟨.token ""⟩

/-- The kind of a named node. -/
def kind? : Tree → Option Kind
  | .token _ => none
  | .leaf kind _ _ => some kind
  | .branch kind _ _ => some kind

/-- Whether a tree is a comment, which may stand anywhere. -/
def isExtra (tree : Tree) : Bool :=
  tree.kind?.any Kind.isExtra

/-- Whether a tree is neither a token nor a comment. -/
def isProper (tree : Tree) : Bool :=
  tree.kind?.isSome && !tree.isExtra

/-- Whether a tree is a node of the given kind. -/
def isA (kind : Kind) (tree : Tree) : Bool :=
  tree.kind? == some kind

mutual

/-- What a tree spells: its tokens and leaves one after the other. -/
def spelling : Tree → String
  | .token text => text
  | .leaf _ _ text => text
  | .branch _ _ children => spellingOf children

/-- What a list of children spells. -/
def spellingOf : List (Option String × Tree) → String
  | [] => ""
  | (_, child) :: rest => spelling child ++ spellingOf rest

end

end Tree

end ShapeAudit.Source
