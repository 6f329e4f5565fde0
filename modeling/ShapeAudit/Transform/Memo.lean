import ShapeAudit.Digest.Sha256
import ShapeAudit.Json.Writer
import ShapeAudit.Transform.Basic
import Std.Data.HashMap

/-!
Remembering outputs. A transformer with a memo answers a call that succeeded before from its table.
The key of a call is the digest of the source, a zero octet, and the compact text of the
configuration. Faults are not remembered.
-/

namespace ShapeAudit.Transform

/-! ## Keys -/

/-- The message that tells calls apart: source, a zero octet, text of the configuration. -/
def cacheMessage (code : String) (config : Json) : List UInt8 :=
  Text.octets code ++ 0 :: Text.octets config.compact

/-- The key of a call. -/
def cacheKey (code : String) (config : Json) : String :=
  Sha256.hex (cacheMessage code config)

/-! ## The table -/

/-- A table of outputs in front of the state of a transformer. -/
structure Memo (σ : Type) where
  /-- The outputs that are remembered, by key. -/
  entries : Std.HashMap String String := ∅
  /-- How many calls the table answered. -/
  hits : Nat := 0
  /-- How many calls went to the transformer. -/
  misses : Nat := 0
  /-- The state of the transformer. -/
  inner : σ

namespace Memo

/-- An empty table in front of a state. -/
def fresh {σ : Type} (inner : σ) : Memo σ :=
  { inner := inner }

/-- How many outputs are remembered. -/
def size {σ : Type} (memo : Memo σ) : Nat :=
  memo.entries.size

/-- Forgets all outputs and keeps the counts. -/
def clear {σ : Type} (memo : Memo σ) : Memo σ :=
  { memo with entries := ∅ }

end Memo

/-- A transformer with a table in front of it. -/
def memoized {σ : Type} (inner : Transformer σ) : Transformer (Memo σ) where
  label := inner.label ++ " (cached)"
  transform code config memo :=
    let key := cacheKey code config
    match memo.entries[key]? with
    | some output => (.ok output, { memo with hits := memo.hits + 1 })
    | none =>
      let (result, after) := inner.transform code config memo.inner
      let missed := { memo with misses := memo.misses + 1, inner := after }
      match result with
      | .ok output => (.ok output, { missed with entries := missed.entries.insert key output })
      | .error fault => (.error fault, missed)
  reset memo :=
    let cleared := memo.clear
    { cleared with inner := inner.reset cleared.inner }

end ShapeAudit.Transform
