import ShapeAudit.Settings
import ShapeAudit.Proofs.Text.Count
import ShapeAudit.Proofs.Transform.Engine

/-!
# Settings as merged layers

Of values from several layers the last one of the highest layer wins, however
the merges are grouped.  The settings of a run are such winners: their layers
are different, so it does not matter in which order they are merged, although
most of them are never merged but put one in the place of the other.
-/

namespace ShapeAudit

namespace Layer

theorem rank_injective {first second : Layer} (same : first.rank = second.rank) :
    first = second := by
  revert same
  cases first <;> cases second <;> decide

end Layer

namespace Layered

variable {α : Type}

/-! ## Merging -/

theorem merge_of_le
    {first second : Layered α} (below : first.layer.rank ≤ second.layer.rank) :
    first.merge second = second :=
  if_pos below

theorem merge_of_lt
    {first second : Layered α} (above : second.layer.rank < first.layer.rank) :
    first.merge second = first :=
  if_neg (Nat.not_le.mpr above)

theorem merge_assoc (first second third : Layered α) :
    (first.merge second).merge third = first.merge (second.merge third) := by
  rcases Nat.lt_or_ge second.layer.rank first.layer.rank with firstAbove | firstBelow
  · rcases Nat.lt_or_ge third.layer.rank second.layer.rank with secondAbove | secondBelow
    · have aboveBoth : third.layer.rank < first.layer.rank := by
        omega
      rw [merge_of_lt firstAbove, merge_of_lt secondAbove, merge_of_lt aboveBoth,
        merge_of_lt firstAbove]
    · rw [merge_of_lt firstAbove, merge_of_le secondBelow]
  · rcases Nat.lt_or_ge third.layer.rank second.layer.rank with secondAbove | secondBelow
    · rw [merge_of_le firstBelow, merge_of_lt secondAbove, merge_of_le firstBelow]
    · have belowBoth : first.layer.rank ≤ third.layer.rank := by
        omega
      rw [merge_of_le firstBelow, merge_of_le secondBelow, merge_of_le belowBoth]

/-- Merges values from the left; there must be one. -/
def mergeAll? : List (Layered α) → Option (Layered α)
  | [] => none
  | first :: rest => some (rest.foldl merge first)

/-- A value is the last among those of the highest layer. -/
def LastHighest (layers : List (Layered α)) (winner : Layered α) : Prop :=
  ∃ before after, layers = before ++ winner :: after ∧
    (∀ other ∈ before, other.layer.rank ≤ winner.layer.rank) ∧
    ∀ other ∈ after, other.layer.rank < winner.layer.rank

theorem LastHighest.rank_le
    {layers : List (Layered α)} {winner other : Layered α} (wins : LastHighest layers winner)
    (isMember : other ∈ layers) :
    other.layer.rank ≤ winner.layer.rank := by
  obtain ⟨before, after, rfl, aboveBefore, aboveAfter⟩ := wins
  rcases List.mem_append.mp isMember with inBefore | inRest
  · exact aboveBefore other inBefore
  · rcases List.mem_cons.mp inRest with rfl | inAfter
    · exact Nat.le_refl _
    · exact Nat.le_of_lt (aboveAfter other inAfter)

/-- One more merge makes the winner of one more value. -/
theorem LastHighest.merge
    {layers : List (Layered α)} {winner : Layered α} (wins : LastHighest layers winner)
    (next : Layered α) :
    LastHighest (layers ++ [next]) (winner.merge next) := by
  rcases Nat.lt_or_ge next.layer.rank winner.layer.rank with above | below
  · obtain ⟨before, after, rfl, aboveBefore, aboveAfter⟩ := wins
    rw [merge_of_lt above]
    refine ⟨before, after ++ [next], by simp, aboveBefore, ?_⟩
    intro other isMember
    rcases List.mem_append.mp isMember with inAfter | isNext
    · exact aboveAfter other inAfter
    · rwa [List.mem_singleton.mp isNext]
  · rw [merge_of_le below]
    refine ⟨layers, [], rfl, ?_, by simp⟩
    intro other isMember
    exact Nat.le_trans (wins.rank_le isMember) below

theorem LastHighest.foldl_merge
    {layers : List (Layered α)} {winner : Layered α} (wins : LastHighest layers winner)
    (rest : List (Layered α)) :
    LastHighest (layers ++ rest) (rest.foldl Layered.merge winner) := by
  induction rest generalizing layers winner with
  | nil =>
      simpa using wins
  | cons next rest inductionHypothesis =>
      have wholeRun := inductionHypothesis (wins.merge next)
      rwa [List.append_assoc] at wholeRun

theorem lastHighest_singleton (only : Layered α) :
    LastHighest [only] only :=
  ⟨[], [], rfl, by simp, by simp⟩

theorem foldl_merge_of_lt
    {winner : Layered α} {after : List (Layered α)}
    (aboveAfter : ∀ other ∈ after, other.layer.rank < winner.layer.rank) :
    after.foldl merge winner = winner := by
  induction after with
  | nil =>
      rfl
  | cons next rest inductionHypothesis =>
      have aboveNext : next.layer.rank < winner.layer.rank :=
        aboveAfter next List.mem_cons_self
      rw [List.foldl_cons, merge_of_lt aboveNext]
      apply inductionHypothesis
      intro other isMember
      exact aboveAfter other (List.mem_cons_of_mem next isMember)

/-- Merging from the left finds the last value of the highest layer. -/
theorem mergeAll?_eq_some_iff {layers : List (Layered α)} {winner : Layered α} :
    mergeAll? layers = some winner ↔ LastHighest layers winner := by
  constructor
  · intro merged
    cases layers with
    | nil =>
        cases merged
    | cons first rest =>
        cases merged
        exact (lastHighest_singleton first).foldl_merge rest
  · rintro ⟨before, after, rfl, aboveBefore, aboveAfter⟩
    cases before with
    | nil =>
        rw [List.nil_append, mergeAll?, foldl_merge_of_lt aboveAfter]
    | cons first rest =>
        obtain ⟨front, back, parted, -⟩ := (lastHighest_singleton first).foldl_merge rest
        have belowWinner : (rest.foldl merge first).layer.rank ≤ winner.layer.rank := by
          apply aboveBefore
          rw [← List.singleton_append, parted]
          exact List.mem_append_right front List.mem_cons_self
        rw [List.cons_append, mergeAll?, List.foldl_append, List.foldl_cons,
          merge_of_le belowWinner, foldl_merge_of_lt aboveAfter]

/-- Among values of different layers the order makes no difference. -/
theorem LastHighest.perm
    {layers order : List (Layered α)} {winner : Layered α} (wins : LastHighest layers winner)
    (apart : (layers.map Layered.layer).Nodup) (reordered : order.Perm layers) :
    LastHighest order winner := by
  have isMember : winner ∈ order := by
    obtain ⟨before, after, rfl, -⟩ := wins
    exact reordered.mem_iff.mpr (List.mem_append_right before List.mem_cons_self)
  obtain ⟨before, after, rfl⟩ := List.append_of_mem isMember
  have atMost : ∀ other ∈ before ++ winner :: after, other.layer.rank ≤ winner.layer.rank := by
    intro other isOther
    exact wins.rank_le (reordered.mem_iff.mp isOther)
  refine ⟨before, after, rfl, ?_, ?_⟩
  · intro other inBefore
    exact atMost other (List.mem_append_left _ inBefore)
  · intro other inAfter
    have apartInOrder : ((before ++ winner :: after).map Layered.layer).Nodup :=
      (reordered.map Layered.layer).nodup_iff.mpr apart
    rw [List.map_append, List.map_cons] at apartInOrder
    have notSame : winner.layer ≠ other.layer := by
      intro same
      have notLater := (List.nodup_cons.mp (List.nodup_append.mp apartInOrder).2.1).1
      exact notLater (same ▸ List.mem_map_of_mem inAfter)
    have below := atMost other (List.mem_append_right before (List.mem_cons_of_mem _ inAfter))
    have different : other.layer.rank ≠ winner.layer.rank := fun same =>
      notSame (Layer.rank_injective same).symm
    omega

/-! ## The layers of one setting -/

/-- The values that a setting has in the layers that say something about it. -/
def available (base : α) (ambient given : Option α) : List (Layered α) :=
  ⟨base, .byDefault⟩ ::
    ((ambient.map fun value => ⟨value, .environment⟩).toList ++
      (given.map fun value => ⟨value, .commandLine⟩).toList)

theorem available_apart (base : α) (ambient given : Option α) :
    ((available base ambient given).map Layered.layer).Nodup := by
  cases ambient <;> cases given <;> simp [available]

/-- Whatever the order in which the layers of a setting are merged, this is the
outcome. -/
def MergedFrom (base : α) (ambient given : Option α) (outcome : Layered α) : Prop :=
  ∀ order, order.Perm (available base ambient given) → mergeAll? order = some outcome

/-- Putting one value in the place of another comes to the same as merging, since
the layers rise. -/
theorem mergedFrom_replaceGiven (base : α) (ambient given : Option α) :
    MergedFrom base ambient given
      ((replaceGiven ⟨base, .byDefault⟩ .environment ambient).replaceGiven .commandLine given) := by
  intro order reordered
  rw [mergeAll?_eq_some_iff]
  refine LastHighest.perm ?_ (available_apart base ambient given) reordered
  rw [← mergeAll?_eq_some_iff]
  cases ambient <;> cases given <;> rfl

theorem mergeGiven_default (base : α) (ambient : Option α) :
    mergeGiven ⟨base, .byDefault⟩ .environment ambient =
      replaceGiven ⟨base, .byDefault⟩ .environment ambient := by
  cases ambient <;> rfl

end Layered

namespace Settings

/-! ## What the environment says -/

/-- The texts that are counts above zero, blanks around them aside. -/
def PositiveCount (raw : String) (value : Nat) : Prop :=
  Text.Counts (Text.trim raw) value ∧ 0 < value

/-- The texts that specify an engine, blanks around them aside. -/
def SpecifiesEngine (raw : String) (spec : Transform.EngineSpec) : Prop :=
  Transform.EngineSpec.Written (Text.trim raw) spec

/-- What a variable gives that is read in some way: a blank one gives nothing. -/
inductive Gives {α : Type} (bindings : String → Option String) (name : String)
    (reads : String → α → Prop) : Option α → Prop
  | value {raw : String} {value : α} :
      bindings name = some raw →
      ¬ Text.Blank raw →
      reads raw value →
      Gives bindings name reads (some value)
  | nothing :
      (∀ raw, bindings name = some raw → Text.Blank raw) →
      Gives bindings name reads none

theorem lookup_cases (bindings : String → Option String) (name : String) :
    (∃ raw, lookup bindings name = some raw ∧ bindings name = some raw ∧ ¬ Text.Blank raw) ∨
      (lookup bindings name = none ∧ ∀ raw, bindings name = some raw → Text.Blank raw) := by
  rw [lookup]
  cases bound : bindings name with
  | none =>
      exact Or.inr ⟨rfl, by simp⟩
  | some raw =>
      by_cases isBlank : Text.Blank raw
      · have trimmed : Text.trim raw = "" := Text.trim_eq_empty_iff.mpr isBlank
        refine Or.inr ⟨by simp [trimmed], ?_⟩
        intro other isOther
        rwa [← Option.some.inj isOther]
      · have trimmed : Text.trim raw ≠ "" := mt Text.trim_eq_empty_iff.mp isBlank
        exact Or.inl ⟨raw, by simp [trimmed], rfl, isBlank⟩

theorem gives_lookup (bindings : String → Option String) (name : String) :
    Gives bindings name Eq (lookup bindings name) := by
  rcases lookup_cases bindings name with ⟨raw, found, bound, visible⟩ | ⟨found, allBlank⟩
  · rw [found]
    exact .value bound visible rfl
  · rw [found]
    exact .nothing allBlank

/-- A reader of a variable gives what the variable stands for, or a fault that
names the variable and its value. -/
structure ReadsAs {α : Type} (name : String) (read : String → Except SettingsFault α)
    (reads : String → α → Prop) : Prop where
  ok_iff : ∀ raw value, read raw = .ok value ↔ reads raw value
  blames : ∀ raw fault, read raw = .error fault → fault.origin = name ∧ fault.value = raw

theorem readsAs_ambientEngine :
    ReadsAs engineVariable ambientEngine SpecifiesEngine := by
  constructor
  · intro raw spec
    rw [SpecifiesEngine, ← Transform.EngineSpec.parse_eq_ok_iff, ambientEngine]
    cases Transform.EngineSpec.parse raw <;> simp
  · intro raw fault failed
    rw [ambientEngine] at failed
    cases parsed : Transform.EngineSpec.parse raw with
    | ok spec =>
        simp [parsed] at failed
    | error found =>
        simp only [parsed, Except.error.injEq] at failed
        subst failed
        exact ⟨rfl, rfl⟩

theorem readsAs_ambientCount (name : String) :
    ReadsAs name (ambientCount name) PositiveCount := by
  constructor
  · intro raw value
    rw [PositiveCount, ← Text.count_eq_ok_iff, ambientCount]
    split
    · rename_i isZero
      simp only [isZero, reduceCtorEq, Except.ok.injEq, false_iff, not_and]
      omega
    · rename_i found positive isCount
      have notZero : found ≠ 0 := by
        rintro rfl
        exact positive rfl
      simp only [isCount, Except.ok.injEq]
      omega
    · rename_i found isFault
      simp [isFault]
  · intro raw fault failed
    rw [ambientCount] at failed
    split at failed
    · cases failed
      exact ⟨rfl, rfl⟩
    · cases failed
    · cases failed
      exact ⟨rfl, rfl⟩

/-- The variables that are checked, in the order in which they are looked at, each
with what its value has to be. -/
def checks : List (String × (String → Prop)) :=
  [(engineVariable, fun raw => ∃ spec, SpecifiesEngine raw spec),
    (timeoutVariable, fun raw => ∃ value, PositiveCount raw value),
    (batchVariable, fun raw => ∃ value, PositiveCount raw value)]

/-- A variable passes if it is blank or has a value that it may have. -/
def Passes (bindings : String → Option String) (check : String × (String → Prop)) : Prop :=
  ∀ raw, bindings check.1 = some raw → ¬ Text.Blank raw → check.2 raw

/-- A fault is that of a variable. -/
structure Blames (bindings : String → Option String) (check : String × (String → Prop))
    (fault : SettingsFault) : Prop where
  origin : fault.origin = check.1
  value : bindings check.1 = some fault.value
  visible : ¬ Text.Blank fault.value
  invalid : ¬ check.2 fault.value

theorem Gives.passes
    {α : Type} {bindings : String → Option String} {name : String} {reads : String → α → Prop}
    {found : Option α} (gives : Gives bindings name reads found) :
    Passes bindings (name, fun raw => ∃ value, reads raw value) := by
  intro raw bound visible
  cases gives with
  | value otherBound otherVisible isRead =>
      have sameRaw := Option.some.inj (bound.symm.trans otherBound)
      exact ⟨_, sameRaw ▸ isRead⟩
  | nothing allBlank =>
      exact absurd (allBlank raw bound) visible

theorem ReadsAs.lookup_cases
    {α : Type} {name : String} {read : String → Except SettingsFault α}
    {reads : String → α → Prop} (isReader : ReadsAs name read reads)
    (bindings : String → Option String) :
    (∃ found, (lookup bindings name).mapM read = .ok found ∧ Gives bindings name reads found) ∨
      ∃ fault, (lookup bindings name).mapM read = .error fault ∧
        Blames bindings (name, fun raw => ∃ value, reads raw value) fault := by
  rcases Settings.lookup_cases bindings name with ⟨raw, found, bound, visible⟩ | ⟨found, allBlank⟩
  · rw [found]
    cases isRead : read raw with
    | ok value =>
        have meant := (isReader.ok_iff raw value).mp isRead
        exact Or.inl ⟨some value, by simp [isRead], .value bound visible meant⟩
    | error fault =>
        obtain ⟨isOrigin, isValue⟩ := isReader.blames raw fault isRead
        have invalid : ¬ ∃ value, reads raw value := by
          rintro ⟨value, meant⟩
          rw [(isReader.ok_iff raw value).mpr meant] at isRead
          cases isRead
        subst isValue
        exact Or.inr ⟨fault, by simp [isRead], isOrigin, bound, visible, invalid⟩
  · rw [found]
    exact Or.inl ⟨none, rfl, .nothing allBlank⟩

/-- What the environment says about each setting.  The cache folder is that of the
first of two variables that is not blank. -/
structure Says (bindings : String → Option String) (surroundings : Ambient) : Prop where
  engine : Gives bindings engineVariable SpecifiesEngine surroundings.engine
  cacheFolder : ∃ first second, Gives bindings cacheVariable Eq first ∧
    Gives bindings legacyCacheVariable Eq second ∧ surroundings.cacheFolder = first.or second
  timeout : Gives bindings timeoutVariable PositiveCount surroundings.timeoutSeconds
  batch : Gives bindings batchVariable PositiveCount surroundings.batchSize

/-- A fault is that of the first variable that does not pass. -/
def BlamesFirst (bindings : String → Option String) (fault : SettingsFault) : Prop :=
  ∃ before check after, checks = before ++ check :: after ∧
    (∀ earlier ∈ before, Passes bindings earlier) ∧ Blames bindings check fault

/-- The environment says something about each setting, or the first variable that
does not pass is blamed. -/
theorem ambient_cases (bindings : String → Option String) :
    (∃ surroundings, ambient bindings = .ok surroundings ∧ Says bindings surroundings) ∨
      ∃ fault, ambient bindings = .error fault ∧ BlamesFirst bindings fault := by
  rcases readsAs_ambientEngine.lookup_cases bindings with
    ⟨engine, engineRead, engineGiven⟩ | ⟨fault, failed, blamed⟩
  · rcases (readsAs_ambientCount timeoutVariable).lookup_cases bindings with
      ⟨timeout, timeoutRead, timeoutGiven⟩ | ⟨fault, failed, blamed⟩
    · rcases (readsAs_ambientCount batchVariable).lookup_cases bindings with
        ⟨batch, batchRead, batchGiven⟩ | ⟨fault, failed, blamed⟩
      · refine Or.inl ⟨⟨engine, (lookup bindings cacheVariable).or
          (lookup bindings legacyCacheVariable), timeout, batch⟩, ?_, ?_⟩
        · simp [ambient, engineRead, timeoutRead, batchRead, bind, Except.bind]
        · exact ⟨engineGiven,
            ⟨_, _, gives_lookup bindings _, gives_lookup bindings _, rfl⟩,
            timeoutGiven, batchGiven⟩
      · refine Or.inr ⟨fault, ?_, [_, _], _, [], rfl, ?_, blamed⟩
        · simp [ambient, engineRead, timeoutRead, failed, bind, Except.bind]
        · simp [engineGiven.passes, timeoutGiven.passes]
    · refine Or.inr ⟨fault, ?_, [_], _, [_], rfl, ?_, blamed⟩
      · simp [ambient, engineRead, failed, bind, Except.bind]
      · simp [engineGiven.passes]
  · refine Or.inr ⟨fault, ?_, [], _, [_, _], rfl, by simp, blamed⟩
    simp [ambient, failed, bind, Except.bind]

theorem Says.passes
    {bindings : String → Option String} {surroundings : Ambient}
    (said : Says bindings surroundings) :
    ∀ check ∈ checks, Passes bindings check := by
  simp [checks, said.engine.passes, said.timeout.passes, said.batch.passes]

theorem BlamesFirst.not_passes
    {bindings : String → Option String} {fault : SettingsFault}
    (blamed : BlamesFirst bindings fault) :
    ¬ ∀ check ∈ checks, Passes bindings check := by
  obtain ⟨before, check, after, isChecks, -, blames⟩ := blamed
  intro allPass
  have passes : Passes bindings check := by
    apply allPass
    rw [isChecks]
    exact List.mem_append_right before List.mem_cons_self
  exact blames.invalid (passes fault.value blames.value blames.visible)

/-! ## All layers -/

/-- Every setting is what merging its layers in any order gives. -/
structure MergedLayers (home : String) (surroundings : Ambient) (given : Overrides)
    (settings : Settings) : Prop where
  engine : Layered.MergedFrom Transform.EngineSpec.default surroundings.engine given.engine
    settings.engine
  cacheFolder : Layered.MergedFrom (cacheIn home) surroundings.cacheFolder given.cacheFolder
    settings.cacheFolder
  timeoutSeconds : Layered.MergedFrom defaultTimeout surroundings.timeoutSeconds
    given.timeoutSeconds settings.timeoutSeconds
  batchSize : Layered.MergedFrom defaultBatchSize surroundings.batchSize given.batchSize
    settings.batchSize

theorem resolve_of_ambient
    {bindings : String → Option String} {surroundings : Ambient}
    (said : ambient bindings = .ok surroundings) (home : String) (given : Overrides) :
    ∃ settings, resolve home bindings given = .ok settings ∧
      MergedLayers home surroundings given settings := by
  rw [resolve, said]
  refine ⟨_, rfl, ?_, ?_, ?_, ?_⟩
  · have merged : (defaults home).engine.mergeGiven .environment surroundings.engine =
        (defaults home).engine.replaceGiven .environment surroundings.engine :=
      Layered.mergeGiven_default _ _
    dsimp only
    rw [merged]
    exact Layered.mergedFrom_replaceGiven _ _ _
  · exact Layered.mergedFrom_replaceGiven _ _ _
  · exact Layered.mergedFrom_replaceGiven _ _ _
  · exact Layered.mergedFrom_replaceGiven _ _ _

/-- Settings are found exactly if every variable that is checked is blank or
valid.  Each is then the outcome of merging the layers that say something about
it, in any order; else the first variable that is not valid is named.  Merging is
associative, and of any values it leaves the last one of the highest layer. -/
theorem settings_are_merged_layers
    (home : String) (bindings : String → Option String) (given : Overrides) :
    ((∃ settings, resolve home bindings given = .ok settings) ↔
      ∀ check ∈ checks, Passes bindings check) ∧
    (∀ settings, resolve home bindings given = .ok settings →
      ∃ surroundings, Says bindings surroundings ∧
        MergedLayers home surroundings given settings) ∧
    (∀ fault, resolve home bindings given = .error fault → BlamesFirst bindings fault) ∧
    (∀ (α : Type) (first second third : Layered α),
      (first.merge second).merge third = first.merge (second.merge third)) ∧
    ∀ (α : Type) (layers : List (Layered α)), layers ≠ [] →
      ∃ winner, Layered.mergeAll? layers = some winner ∧ Layered.LastHighest layers winner := by
  have mergesAll : ∀ (α : Type) (layers : List (Layered α)), layers ≠ [] →
      ∃ winner, Layered.mergeAll? layers = some winner ∧ Layered.LastHighest layers winner := by
    intro α layers someLayers
    obtain ⟨first, rest, rfl⟩ := List.exists_cons_of_ne_nil someLayers
    exact ⟨_, rfl, Layered.mergeAll?_eq_some_iff.mp rfl⟩
  rcases ambient_cases bindings with ⟨surroundings, isAmbient, said⟩ | ⟨fault, failed, blamed⟩
  · obtain ⟨settings, resolved, merged⟩ := resolve_of_ambient isAmbient home given
    rw [resolved]
    refine ⟨⟨fun _ => said.passes, fun _ => ⟨settings, rfl⟩⟩, ?_, by simp,
      fun α => Layered.merge_assoc, mergesAll⟩
    intro other same
    rw [← Except.ok.inj same]
    exact ⟨surroundings, said, merged⟩
  · have isFault : resolve home bindings given = .error fault := by
      simp [resolve, failed, bind, Except.bind]
    rw [isFault]
    refine ⟨⟨by simp, fun allPass => absurd allPass blamed.not_passes⟩, by simp, ?_,
      fun α => Layered.merge_assoc, mergesAll⟩
    intro other same
    rwa [← Except.error.inj same]

/-- Two blank variables, one for the cache folder and one for the batch. -/
def sampleBindings (name : String) : Option String :=
  if name = engineVariable then some "terser"
  else if name = cacheVariable then some " \t"
  else if name = legacyCacheVariable then some "/old"
  else if name = timeoutVariable then some " +7\n"
  else if name = batchVariable then some ""
  else none

def sampleSettings : Settings where
  engine := ⟨⟨.terser, "5.31.5"⟩, .environment⟩
  cacheFolder := ⟨"/old", .environment⟩
  timeoutSeconds := ⟨7, .environment⟩
  batchSize := ⟨3, .commandLine⟩

theorem sample_settings_are_merged :
    resolve "/home" sampleBindings ⟨none, none, none, some 3⟩ = .ok sampleSettings ∧
      ∃ surroundings, Says sampleBindings surroundings ∧
        MergedLayers "/home" surroundings ⟨none, none, none, some 3⟩ sampleSettings := by
  have resolved : resolve "/home" sampleBindings ⟨none, none, none, some 3⟩ =
      .ok sampleSettings := by
    rfl
  exact ⟨resolved, (settings_are_merged_layers _ _ _).2.1 _ resolved⟩

end Settings

end ShapeAudit
