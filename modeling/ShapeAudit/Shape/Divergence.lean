import ShapeAudit.Json.Decode
import ShapeAudit.Shape.Tree

/-!
The first place at which two shape trees differ. Lexical nodes are equal whatever they hold; all
other nodes must have the same kind, the same field names and equal fields. The walk visits a node
before its fields, fields in the order of their names and sequences from the left, and it ends at
the first difference.
-/

namespace ShapeAudit.Shape

/-- Why two trees differ at a place. -/
inductive Reason where
  /-- One side is a lexical node and the other is not. -/
  | lexicalMismatch
  /-- The kinds of two nodes differ. -/
  | kindMismatch
  /-- Two nodes have different field names. -/
  | fieldMismatch
  /-- Two sequences have different lengths. -/
  | lengthMismatch
  /-- Two words differ. -/
  | textMismatch
  /-- Two of node, sequence and word meet. -/
  | shapeMismatch
  deriving DecidableEq

namespace Reason

/-- Every reason. -/
def all : List Reason :=
  [.lexicalMismatch, .kindMismatch, .fieldMismatch, .lengthMismatch, .textMismatch, .shapeMismatch]

/-- The name under which a reason is written. -/
def name : Reason → String
  | .lexicalMismatch => "lexical_mismatch"
  | .kindMismatch => "kind_mismatch"
  | .fieldMismatch => "field_mismatch"
  | .lengthMismatch => "length_mismatch"
  | .textMismatch => "text_mismatch"
  | .shapeMismatch => "shape_mismatch"

/-- The reason of a name. -/
def ofName? (text : String) : Option Reason :=
  all.find? fun reason => reason.name == text

/-- A reason in words. -/
def words : Reason → String
  | .lexicalMismatch => "lexical node on one side only"
  | .kindMismatch => "node kinds differ"
  | .fieldMismatch => "field names differ"
  | .lengthMismatch => "sequence lengths differ"
  | .textMismatch => "tokens differ"
  | .shapeMismatch => "value shapes differ"

end Reason

/-! ## Trails -/

/-- One segment of the way from the root to a place. -/
inductive Step where
  | kind (kind : Kind)
  | field (name : String)
  | index (position : Nat)
  deriving DecidableEq

namespace Step

/-- A segment as it is written in a path. -/
def text : Step → String
  | .kind reached => reached.name
  | .field name => name
  | .index position => "[" ++ Text.decimal position ++ "]"

end Step

/-- A difference: the way to it, from the root on, and why it is one. -/
structure Trail where
  steps : List Step
  reason : Reason
  deriving DecidableEq

namespace Trail

/-- The difference seen from one segment further up. -/
def within (step : Step) (trail : Trail) : Trail :=
  { trail with steps := step :: trail.steps }

/-- Continues a path by a segment. A dot stands between segments, except before a bracket. -/
def extend (path segment : String) : String :=
  if path.isEmpty || Text.startsWith segment "[" then path ++ segment else path ++ "." ++ segment

/-- The segments of a trail as one path. -/
def path (trail : Trail) : String :=
  trail.steps.foldl (fun path step => extend path step.text) ""

end Trail

/-! ## Comparison -/

mutual

/-- The first difference between two values. -/
def treeTrail? : Tree → Tree → Option Trail
  | .node kindA fieldsA _, .node kindB fieldsB _ =>
    if kindA.isLexical && kindB.isLexical then none
    else if kindA.isLexical || kindB.isLexical then some ⟨[], .lexicalMismatch⟩
    else if kindA ≠ kindB then some ⟨[.kind kindA], .kindMismatch⟩
    else if Fields.names fieldsA ≠ Fields.names fieldsB then some ⟨[.kind kindA], .fieldMismatch⟩
    else (fieldsTrail? fieldsA fieldsB).map (Trail.within (.kind kindA))
  | .list itemsA, .list itemsB =>
    if itemsA.length ≠ itemsB.length then some ⟨[], .lengthMismatch⟩
    else itemsTrail? 0 itemsA itemsB
  | .word a, .word b => if a ≠ b then some ⟨[], .textMismatch⟩ else none
  | .node kind _ _, _ => some ⟨[], if kind.isLexical then .lexicalMismatch else .shapeMismatch⟩
  | _, .node kind _ _ => some ⟨[], if kind.isLexical then .lexicalMismatch else .shapeMismatch⟩
  | .list _, .word _ => some ⟨[], .shapeMismatch⟩
  | .word _, .list _ => some ⟨[], .shapeMismatch⟩

/-- The first difference between two sequences of one length, whose first items have the given
index. -/
def itemsTrail? : Nat → List Tree → List Tree → Option Trail
  | index, a :: restA, b :: restB =>
    match treeTrail? a b with
    | some trail => some (trail.within (.index index))
    | none => itemsTrail? (index + 1) restA restB
  | _, _, _ => none

/-- The first difference between fields of the same names. -/
def fieldsTrail? : List (String × List Tree) → List (String × List Tree) → Option Trail
  | (name, itemsA) :: restA, (_, itemsB) :: restB =>
    let found :=
      if itemsA.length ≠ itemsB.length then some ⟨[], .lengthMismatch⟩
      else itemsTrail? 0 itemsA itemsB
    match found with
    | some trail => some (trail.within (.field name))
    | none => fieldsTrail? restA restB
  | _, _ => none

end

/-- Whether two values can be told apart once lexical detail is set aside. -/
def differ (a b : Tree) : Bool :=
  (treeTrail? a b).isSome

/-- Where two nodes first differ, as it is reported. -/
structure Divergence where
  /-- The way from the root, such as `Program.children[1].ExpressionStatement`. -/
  path : String
  /-- What differs there. -/
  reason : Reason
  deriving DecidableEq

namespace Divergence

/-- A difference as it is reported. -/
def ofTrail (trail : Trail) : Divergence :=
  ⟨trail.path, trail.reason⟩

/-- A difference as one line of text. -/
def message (divergence : Divergence) : String :=
  if divergence.path.isEmpty then divergence.reason.words
  else divergence.reason.words ++ " at " ++ divergence.path

/-- A difference as a JSON value. -/
def toJson (divergence : Divergence) : Json :=
  .object [("path", .text divergence.path), ("reason", .text divergence.reason.name)]

/-- The difference that a JSON value holds. -/
def ofJson (value : Json) : Except Json.Mismatch Divergence := do
  let (path, reason) ← Json.decodePair "Divergence" "path" "reason" Json.decodeText
    (Json.decodeAlternative (Reason.all.map fun reason => (reason.name, reason))) value
  .ok ⟨path, reason⟩

end Divergence

namespace Node

/-- Whether two nodes can be told apart once lexical detail is set aside. -/
def differ (a b : Node) : Bool :=
  Shape.differ a.toTree b.toTree

/-- The first difference between two nodes. -/
def firstDivergence? (a b : Node) : Option Divergence :=
  (treeTrail? a.toTree b.toTree).map Divergence.ofTrail

end Node

end ShapeAudit.Shape
