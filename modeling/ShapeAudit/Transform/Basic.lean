import ShapeAudit.Json.Basic
import ShapeAudit.Transform.Fault

/-!
Transformers: anything that turns a source and a configuration into a source. A transformer may keep
state from call to call, and may fail.
-/

namespace ShapeAudit

/-- A transformer whose calls act on a state. -/
structure Transformer (σ : Type) where
  /-- How the transformer is named in reports. -/
  label : String
  /-- One call: a source and a configuration give an output or a fault, and the state after it. -/
  transform : String → Json → σ → Except Transform.Fault String × σ
  /-- Drops what was kept for the current input. -/
  reset : σ → σ

namespace Transformer

/-- The transformer that answers every call by the same function and keeps nothing. -/
def ofFunction (label : String) (answer : String → Json → Except Transform.Fault String) :
    Transformer Unit where
  label := label
  transform code config state := (answer code config, state)
  reset := id

/-- A transformer that works beside something that it leaves alone. -/
def beside {σ τ : Type} (transformer : Transformer σ) : Transformer (σ × τ) where
  label := transformer.label
  transform code config state :=
    let (result, after) := transformer.transform code config state.1
    (result, (after, state.2))
  reset state := (transformer.reset state.1, state.2)

end Transformer

end ShapeAudit
