import ShapeAudit.Config.Record
import ShapeAudit.Search.Basic
import ShapeAudit.Settings
import ShapeAudit.Source.Fault
import ShapeAudit.Summary
import ShapeAudit.Transform.Engine

/-!
The failures of a command, with their wording and their exit codes, and how the faults of the parts
become failures of the whole.
-/

namespace ShapeAudit

/-! ## Exit codes -/

/-- The codes that a command can end with when it does not succeed. -/
inductive ExitCode where
  | invalidArguments
  | unresolved
  | io
  | verificationFailed
  | internal
  deriving DecidableEq, Repr

/-- The number of a code. -/
def ExitCode.number : ExitCode → Nat
  | invalidArguments => 2
  | unresolved => 3
  | io => 4
  | verificationFailed => 5
  | internal => 10

/-! ## Failures -/

/-- Why a command failed. -/
inductive Failure where
  /-- The caller asked for something that cannot be done. -/
  | invalidArguments (explanation : String) (details : Option Json)
  /-- A source could not be parsed. -/
  | unparsable (file explanation : String)
  /-- A path that was given does not exist. -/
  | fileNotFound (path : String)
  /-- Storage failed. -/
  | io (explanation : String) (path : Option String)
  /-- The transformer failed. -/
  | transformFailed (explanation : String)
  /-- Something happened that should not. -/
  | internal (explanation : String)

namespace Failure

/-- The wording of a failure. -/
def message : Failure → String
  | invalidArguments explanation _ => "invalid arguments: " ++ explanation
  | unparsable file explanation => "parse error in " ++ file ++ ": " ++ explanation
  | fileNotFound path => "file not found: " ++ path
  | io explanation _ => "I/O error: " ++ explanation
  | transformFailed explanation => "transform failed: " ++ explanation
  | internal explanation => "internal error: " ++ explanation

/-- The code that a command ends with. -/
def code : Failure → ExitCode
  | invalidArguments _ _ => .invalidArguments
  | unparsable _ _ => .invalidArguments
  | fileNotFound _ => .unresolved
  | io _ _ => .io
  | transformFailed _ => .io
  | internal _ => .internal

/-- What a failure adds to its message. -/
def details? : Failure → Option Json
  | invalidArguments _ details => details
  | _ => none

/-- The file that a failure is about. -/
def file? : Failure → Option String
  | unparsable file _ => some file
  | fileNotFound path => some path
  | io _ path => path
  | _ => none

/-! ## From faults to failures -/

/-- Arguments that cannot be used, with nothing to add. -/
def badArguments (explanation : String) : Failure :=
  invalidArguments explanation none

/-- A source that could not be parsed, and the file that holds it. -/
def ofSource (file : String) : Source.Fault → Failure
  | .grammarUnavailable explanation =>
    internal (Source.Fault.grammarUnavailable explanation).message
  | .aborted => internal Source.Fault.aborted.message
  | fault => unparsable file fault.message

/-- A transformation that failed. -/
def ofTransform : Transform.Fault → Failure
  | .unusable explanation => badArguments explanation
  | fault => transformFailed fault.message

/-- A configuration that could not be had. -/
def ofConfig : Config.Fault → Failure
  | .unreadable path fault =>
    if fault.cause = .notFound then fileNotFound path
    else io (Config.Fault.unreadable path fault).message (some path)
  | fault => badArguments fault.message

/-- Storage that failed, at no path in particular. -/
def ofFiles (fault : Files.Fault) : Failure :=
  io fault.message none

/-- Storage that failed at a path. -/
def atPath (path : String) (fault : Files.Fault) : Failure :=
  if fault.cause = .notFound then fileNotFound path
  else io (path ++ ": " ++ fault.message) (some path)

/-- Files that could not be collected. -/
def ofCollect : Files.CollectFault → Failure
  | .notFound path => fileNotFound path
  | .walk path explanation => io (Files.CollectFault.walk path explanation).message (some path)
  | .io fault => ofFiles fault

/-- A search that was refused. -/
def ofRefusal (refusal : Search.Refusal) : Failure :=
  invalidArguments refusal.message (some (.object
    [("candidates", .ofNat refusal.count), ("limit", .ofNat refusal.limit)]))

/-- A summary that could not be written. -/
def ofSummary : SummaryFault → Failure
  | .io fault => ofFiles fault
  | fault => internal fault.message

/-- Settings that cannot be used. -/
def ofSettings (fault : SettingsFault) : Failure :=
  invalidArguments fault.message (some (.object
    [("origin", .text fault.origin), ("value", .text fault.value)]))

/-- An engine that is not known. -/
def ofSpec (fault : Transform.SpecFault) : Failure :=
  badArguments fault.message

end Failure

end ShapeAudit
