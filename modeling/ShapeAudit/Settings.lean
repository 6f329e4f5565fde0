import ShapeAudit.Text.Count
import ShapeAudit.Files.Path
import ShapeAudit.Transform.Engine

/-!
The settings of a run. Each comes from one of three layers: a default, the environment, or the
command line, and a higher layer wins over a lower one.
-/

namespace ShapeAudit

/-! ## Layers -/

/-- Where a setting comes from, lowest first. -/
inductive Layer where
  | byDefault
  | environment
  | commandLine
  deriving DecidableEq, Repr

namespace Layer

/-- The place of a layer in the order. -/
def rank : Layer → Nat
  | byDefault => 0
  | environment => 1
  | commandLine => 2

/-- The name of a layer. -/
def name : Layer → String
  | byDefault => "default"
  | environment => "env"
  | commandLine => "cli"

/-- The layer of a name. -/
def ofName? (text : String) : Option Layer :=
  [byDefault, environment, commandLine].find? fun layer => layer.name == text

end Layer

/-- A value and the layer that it comes from. -/
structure Layered (α : Type) where
  value : α
  layer : Layer
  deriving DecidableEq

/-- The one of two values that comes from the higher layer, the second one of equals. -/
def Layered.merge {α : Type} (first second : Layered α) : Layered α :=
  if first.layer.rank ≤ second.layer.rank then second else first

/-- Merges a value that may be missing onto another. -/
def Layered.mergeGiven {α : Type} (first : Layered α) (layer : Layer) : Option α → Layered α
  | some value => first.merge ⟨value, layer⟩
  | none => first

/-- Puts a value that may be missing in the place of another. -/
def Layered.replaceGiven {α : Type} (first : Layered α) (layer : Layer) : Option α → Layered α
  | some value => ⟨value, layer⟩
  | none => first

/-! ## Settings -/

/-- A value that cannot be used for a setting. -/
structure SettingsFault where
  /-- The name of the variable. -/
  origin : String
  value : String
  explanation : String
  deriving DecidableEq, Repr

/-- The wording of a fault. -/
def SettingsFault.message (fault : SettingsFault) : String :=
  "invalid value \x60" ++ fault.value ++ "\x60 for " ++ fault.origin ++ ": " ++ fault.explanation

/-- What the command line says about settings. -/
structure Overrides where
  engine : Option Transform.EngineSpec := none
  cacheFolder : Option String := none
  timeoutSeconds : Option Nat := none
  batchSize : Option Nat := none

/-- The settings of a run. -/
structure Settings where
  engine : Layered Transform.EngineSpec
  cacheFolder : Layered String
  timeoutSeconds : Layered Nat
  batchSize : Layered Nat
  deriving DecidableEq

/-- What the environment says about settings. -/
structure Ambient where
  engine : Option Transform.EngineSpec
  cacheFolder : Option String
  timeoutSeconds : Option Nat
  batchSize : Option Nat

namespace Settings

/-- The variable for the engine. -/
def engineVariable : String := "MINICHECK_ENGINE"

/-- The variable for the cache folder. -/
def cacheVariable : String := "MINICHECK_CACHE_DIR"

/-- The variable for the cache folder that is looked at next. -/
def legacyCacheVariable : String := "MINIFY_RUNNER_CACHE_DIR"

/-- The variable for the seconds that one transformation may take. -/
def timeoutVariable : String := "MINICHECK_TIMEOUT_SECS"

/-- The variable for the number of entries in a batch. -/
def batchVariable : String := "MINICHECK_BATCH_SIZE"

/-- The seconds that one transformation may take if nothing is said. -/
def defaultTimeout : Nat := 60

/-- The entries in a batch if nothing is said. -/
def defaultBatchSize : Nat := 100

/-- The cache folder in a home folder. -/
def cacheIn (home : String) : String :=
  Files.child (Files.child home ".cache") "minicheck"

/-- The settings if nothing is said. -/
def defaults (home : String) : Settings where
  engine := ⟨Transform.EngineSpec.default, .byDefault⟩
  cacheFolder := ⟨cacheIn home, .byDefault⟩
  timeoutSeconds := ⟨defaultTimeout, .byDefault⟩
  batchSize := ⟨defaultBatchSize, .byDefault⟩

/-- The value of a variable, unless it is blank. -/
def lookup (bindings : String → Option String) (name : String) : Option String :=
  (bindings name).filter fun value => !(Text.trim value).isEmpty

/-- The engine that the environment names. -/
def ambientEngine (raw : String) : Except SettingsFault Transform.EngineSpec :=
  match Transform.EngineSpec.parse raw with
  | .ok spec => .ok spec
  | .error fault => .error ⟨engineVariable, raw, fault.message⟩

/-- A count that the environment gives, which must not be zero. -/
def ambientCount (origin raw : String) : Except SettingsFault Nat :=
  match Text.count (Text.trim raw) with
  | .ok 0 => .error ⟨origin, raw, "must be greater than zero"⟩
  | .ok value => .ok value
  | .error fault => .error ⟨origin, raw, fault.message⟩

/-- What the environment says. The engine is looked at first, then the timeout, then the batch. -/
def ambient (bindings : String → Option String) : Except SettingsFault Ambient := do
  let engine ← (lookup bindings engineVariable).mapM ambientEngine
  let timeout ← (lookup bindings timeoutVariable).mapM (ambientCount timeoutVariable)
  let batch ← (lookup bindings batchVariable).mapM (ambientCount batchVariable)
  .ok ⟨engine, (lookup bindings cacheVariable).or (lookup bindings legacyCacheVariable),
    timeout, batch⟩

/-- The settings of a run from all layers. An engine that the environment names is merged onto the
default; every other value that is given takes the place of the one before it. -/
def resolve (home : String) (bindings : String → Option String) (given : Overrides) :
    Except SettingsFault Settings := do
  let surroundings ← ambient bindings
  let base := defaults home
  .ok {
    engine := (base.engine.mergeGiven .environment surroundings.engine).replaceGiven
      .commandLine given.engine
    cacheFolder := (base.cacheFolder.replaceGiven .environment
      surroundings.cacheFolder).replaceGiven .commandLine given.cacheFolder
    timeoutSeconds := (base.timeoutSeconds.replaceGiven .environment
      surroundings.timeoutSeconds).replaceGiven .commandLine given.timeoutSeconds
    batchSize := (base.batchSize.replaceGiven .environment
      surroundings.batchSize).replaceGiven .commandLine given.batchSize }

end Settings

end ShapeAudit
