import ShapeAudit.CommandLine.Execute
import ShapeAudit.Proofs.Settings

/-!
# Limits of a run

The seconds for one transformation and the entries of a batch are above zero by
default, and the environment cannot make them zero.  The command line can: what
it gives is never refused, so a limit is zero exactly if it is given as zero.
-/

namespace ShapeAudit

namespace Layered

theorem MergedFrom.eq_replaceGiven
    {α : Type} {base : α} {ambient given : Option α} {outcome : Layered α}
    (merged : MergedFrom base ambient given outcome) :
    outcome =
      (replaceGiven ⟨base, .byDefault⟩ .environment ambient).replaceGiven .commandLine given := by
  have isWinner := merged _ (List.Perm.refl _)
  have isLast := mergedFrom_replaceGiven base ambient given _ (List.Perm.refl _)
  exact Option.some.inj (isWinner.symm.trans isLast)

end Layered

namespace Settings

/-- A limit for which the command line gives a number or nothing: it is positive
unless this number is zero, and it always is if a lower layer decides. -/
structure PositiveUnlessGiven (given : Option Nat) (limit : Layered Nat) : Prop where
  pos_iff : 0 < limit.value ↔ given ≠ some 0
  lower : limit.layer ≠ .commandLine → 0 < limit.value

theorem positiveUnlessGiven_of_mergedFrom
    {base : Nat} {ambient given : Option Nat} {limit : Layered Nat}
    (merged : Layered.MergedFrom base ambient given limit)
    (basePositive : 0 < base) (ambientPositive : ∀ value, ambient = some value → 0 < value) :
    PositiveUnlessGiven given limit := by
  rw [merged.eq_replaceGiven]
  cases given with
  | some value =>
      refine ⟨?_, fun lower => absurd rfl lower⟩
      rw [Ne, Option.some.injEq]
      exact Nat.pos_iff_ne_zero
  | none =>
      cases ambient with
      | some value =>
          have positive := ambientPositive value rfl
          exact ⟨⟨nofun, fun _ => positive⟩, fun _ => positive⟩
      | none =>
          exact ⟨⟨nofun, fun _ => basePositive⟩, fun _ => basePositive⟩

theorem Gives.positive
    {bindings : String → Option String} {name : String} {found : Option Nat}
    (gives : Gives bindings name PositiveCount found) :
    ∀ value, found = some value → 0 < value := by
  rintro value rfl
  cases gives with
  | value bound visible isCount =>
      exact isCount.2

theorem positiveUnlessGiven_of_resolve
    {home : String} {bindings : String → Option String} {given : Overrides} {settings : Settings}
    (resolved : resolve home bindings given = .ok settings) :
    PositiveUnlessGiven given.timeoutSeconds settings.timeoutSeconds ∧
      PositiveUnlessGiven given.batchSize settings.batchSize := by
  rcases ambient_cases bindings with ⟨surroundings, isAmbient, said⟩ | ⟨fault, failed, -⟩
  · obtain ⟨found, isFound, merged⟩ := resolve_of_ambient isAmbient home given
    obtain rfl : found = settings := Except.ok.inj (isFound.symm.trans resolved)
    exact ⟨positiveUnlessGiven_of_mergedFrom merged.timeoutSeconds (by decide) said.timeout.positive,
      positiveUnlessGiven_of_mergedFrom merged.batchSize (by decide) said.batch.positive⟩
  · simp [resolve, failed, bind, Except.bind] at resolved

/-- Whether settings are found does not depend on what the command line gives. -/
theorem exists_resolve_iff
    (home : String) (bindings : String → Option String) (given other : Overrides) :
    (∃ settings, resolve home bindings given = .ok settings) ↔
      ∃ settings, resolve home bindings other = .ok settings := by
  cases isAmbient : ambient bindings <;> simp [resolve, isAmbient, bind, Except.bind]

end Settings

namespace CommandLine

open Settings (PositiveUnlessGiven)

theorem resolve_of_settingsFor
    {situation : Situation} {request : Request} {choice : Choice} {batchSize : Option Nat}
    {settings : Settings}
    (found : settingsFor situation request choice batchSize = .ok settings) :
    ∃ engine, Settings.resolve situation.home situation.lookup
      ⟨engine, request.cacheFolder, request.timeoutSeconds, batchSize⟩ = .ok settings := by
  simp only [settingsFor, bind, Except.bind] at found
  split at found
  · cases found
  · rename_i engine isEngine
    refine ⟨engine, ?_⟩
    cases resolved : Settings.resolve situation.home situation.lookup
        ⟨engine, request.cacheFolder, request.timeoutSeconds, batchSize⟩ with
    | error fault =>
        simp [resolved, Except.mapError] at found
    | ok other =>
        simpa [resolved, Except.mapError] using found

/-- Whatever settings are found, each limit is positive unless the command line
gives it as zero, and always if a lower layer decides it.  What the command line
gives is never the reason for finding no settings.  So a command runs its
transformer with a positive timeout, and fills batches of a positive size, exactly
if it was not asked for zero. -/
theorem limits_are_positive_unless_given_as_zero
    (home : String) (bindings : String → Option String) (given : Overrides) :
    (∀ settings, Settings.resolve home bindings given = .ok settings →
      PositiveUnlessGiven given.timeoutSeconds settings.timeoutSeconds ∧
      PositiveUnlessGiven given.batchSize settings.batchSize) ∧
    (∀ other, (∃ settings, Settings.resolve home bindings given = .ok settings) ↔
      ∃ settings, Settings.resolve home bindings other = .ok settings) ∧
    ∀ (situation : Situation) (request : Request) (choice : Choice) (batchSize : Option Nat)
        (settings : Settings), settingsFor situation request choice batchSize = .ok settings →
      (∀ template, 0 < (Command.externalOf settings template).timeout ↔
        request.timeoutSeconds ≠ some 0) ∧
      (0 < settings.batchSize.value ↔ batchSize ≠ some 0) := by
  refine ⟨fun settings => Settings.positiveUnlessGiven_of_resolve,
    Settings.exists_resolve_iff home bindings given, ?_⟩
  intro situation request choice batchSize settings found
  obtain ⟨engine, resolved⟩ := resolve_of_settingsFor found
  obtain ⟨timeout, batch⟩ := Settings.positiveUnlessGiven_of_resolve resolved
  refine ⟨fun template => ?_, batch.pos_iff⟩
  rw [← timeout.pos_iff]
  change 0 < settings.timeoutSeconds.value * 1000000000 ↔ 0 < settings.timeoutSeconds.value
  omega

/-- A working folder without files, and an environment that gives a timeout. -/
def timedSituation (seconds : String) : Situation where
  files := .empty
  bindings := [("HOME", "/home"), (Settings.timeoutVariable, seconds)]

/-- A request for one transformation. -/
def plainRequest (timeoutSeconds : Option Nat) : Request where
  cacheFolder := none
  timeoutSeconds := timeoutSeconds
  task := .run {} false "f()"

/-- Settings in which all but the limits is left at its default. -/
def limitedTo (timeoutSeconds batchSize : Layered Nat) : Settings :=
  { Settings.defaults "/home" with timeoutSeconds := timeoutSeconds, batchSize := batchSize }

/-- Settings with the timeout of the environment and batches of the usual size. -/
def sevenSeconds : Settings :=
  limitedTo ⟨7, .environment⟩ ⟨100, .byDefault⟩

/-- A timeout of the environment is positive, and it is the one of the transformer
as long as the command line gives none. -/
theorem ambient_timeout_is_positive :
    (Settings.resolve "/home" (timedSituation "7").lookup {} = .ok sevenSeconds ∧
      0 < sevenSeconds.timeoutSeconds.value) ∧
    settingsFor (timedSituation "7") (plainRequest none) {} none = .ok sevenSeconds ∧
      0 < (Command.externalOf sevenSeconds none).timeout ∧
      0 < sevenSeconds.batchSize.value := by
  have resolved : Settings.resolve "/home" (timedSituation "7").lookup {} =
      .ok sevenSeconds := by
    rfl
  have found : settingsFor (timedSituation "7") (plainRequest none) {} none =
      .ok sevenSeconds := by
    rfl
  obtain ⟨ofSettings, -, ofRequests⟩ :=
    limits_are_positive_unless_given_as_zero "/home" (timedSituation "7").lookup {}
  obtain ⟨timeout, batch⟩ := ofRequests _ _ _ _ _ found
  exact ⟨⟨resolved, (ofSettings _ resolved).1.lower (by decide)⟩,
    found, (timeout none).mpr nofun, batch.mpr nofun⟩

/-- A timeout of zero is refused in the environment and taken from the command
line, and so is a batch size of zero. -/
theorem zero_limits_are_taken_from_command_line :
    Settings.resolve "/home" (timedSituation "0").lookup {} =
        .error ⟨Settings.timeoutVariable, "0", "must be greater than zero"⟩ ∧
      Settings.resolve "/home" (fun _ => none) { timeoutSeconds := some 0, batchSize := some 0 } =
        .ok (limitedTo ⟨0, .commandLine⟩ ⟨0, .commandLine⟩) ∧
      Request.ofArguments ["--timeout", "0", "run", "f()"] = .ok (plainRequest (some 0)) ∧
      settingsFor (timedSituation "7") (plainRequest (some 0)) {} none =
        .ok (limitedTo ⟨0, .commandLine⟩ ⟨100, .byDefault⟩) :=
  ⟨rfl, rfl, rfl, rfl⟩

end CommandLine

end ShapeAudit
