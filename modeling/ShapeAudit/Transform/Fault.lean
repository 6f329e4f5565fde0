import ShapeAudit.Files.Fault

/-!
Why a transformation fails, and the text of a stretch of time.
-/

namespace ShapeAudit.Transform

/-! ## Stretches of time -/

/-- The digits of a fraction with a number of places, without the zeros at the end. -/
def placesOf (fraction places : Nat) : List Char :=
  let digits := Nat.toDigits 10 fraction
  let padded := List.replicate (places - digits.length) '0' ++ digits
  (padded.reverse.dropWhile (· == '0')).reverse

/-- A whole number of units and a fraction of a unit, with the sign of the unit. -/
def measured (whole fraction places : Nat) (unit : String) : String :=
  let tail := if fraction = 0 then [] else '.' :: placesOf fraction places
  Text.decimal whole ++ String.ofList tail ++ unit

/-- The text of a number of nanoseconds, in the largest unit that it reaches. -/
def durationText (nanos : Nat) : String :=
  if 1000000000 ≤ nanos then measured (nanos / 1000000000) (nanos % 1000000000) 9 "s"
  else if 1000000 ≤ nanos then measured (nanos / 1000000) (nanos % 1000000) 6 "ms"
  else if 1000 ≤ nanos then measured (nanos / 1000) (nanos % 1000) 3 "µs"
  else measured nanos 0 0 "ns"

/-! ## Faults -/

/-- Why a transformation failed. -/
inductive Fault where
  /-- The transformer ran and refused the input. -/
  | rejected (engine : String) (status : Option Int) (complaint : String)
  /-- The transformer could not be started. -/
  | notStarted (program : String) (fault : Files.Fault)
  /-- The transformer did not finish in time. -/
  | timedOut (engine : String) (nanos : Nat)
  /-- Files or pipes failed. -/
  | io (fault : Files.Fault)
  /-- The transformer is set up in a way that cannot work. -/
  | unusable (explanation : String)
  deriving DecidableEq, Repr

namespace Fault

/-- The text of an exit status that may be missing. -/
def statusText : Option Int → String
  | none => "None"
  | some status =>
    "Some(" ++ (if status < 0 then "-" else "") ++ Text.decimal status.natAbs ++ ")"

/-- The wording of a fault. -/
def message : Fault → String
  | rejected engine status complaint =>
    engine ++ " rejected the input (exit code " ++ statusText status ++ "): " ++ complaint
  | notStarted program fault => "failed to start \x60" ++ program ++ "\x60: " ++ fault.message
  | timedOut engine nanos => engine ++ " timed out after " ++ durationText nanos
  | io fault => "transform I/O error: " ++ fault.message
  | unusable explanation => "invalid transformer configuration: " ++ explanation

end Fault

end ShapeAudit.Transform
