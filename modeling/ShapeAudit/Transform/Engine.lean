import ShapeAudit.Json.Decode

/-!
The engines that are known by name, and specifications of the form `name@version`.
-/

namespace ShapeAudit.Transform

/-- A known transformer. -/
inductive Engine where
  | swc
  | terser
  | babel
  deriving DecidableEq, Repr

/-- Why a text names no engine. -/
inductive SpecFault where
  /-- No engine has the name. -/
  | unknownEngine (name : String)
  /-- The text after the name is no version. -/
  | invalidVersion (version : String)
  deriving DecidableEq, Repr

/-- The wording of a fault. -/
def SpecFault.message : SpecFault → String
  | unknownEngine name =>
    "unknown engine \x60" ++ name ++ "\x60 (expected swc, terser, or babel)"
  | invalidVersion version => "invalid engine version \x60" ++ version ++ "\x60"

namespace Engine

/-- The name of an engine. -/
def name : Engine → String
  | swc => "swc"
  | terser => "terser"
  | babel => "babel"

/-- All engines. -/
def all : List Engine :=
  [swc, terser, babel]

/-- The version that is meant when none is given. -/
def defaultVersion : Engine → String
  | swc => "1.6.7"
  | terser => "5.31.5"
  | babel => "7.14.0"

/-- Where the configuration of an engine holds its flags. -/
def flagsPointer : Engine → String
  | swc => "/jsc/minify/compress"
  | terser => "/compress"
  | babel => ""

/-- The usual name of the configuration file of an engine. -/
def configFile : Engine → String
  | swc => ".swcrc"
  | terser => ".terserrc"
  | babel => ".babelrc"

/-- The configuration of an engine when none is given. -/
def defaultConfig : Engine → Json
  | swc => .object [
      ("jsc", .object [("minify", .object [("compress", .object []), ("mangle", .bool false)])]),
      ("minify", .bool true)]
  | terser => .object [("compress", .object []), ("mangle", .bool false)]
  | babel => .object [("comments", .bool false), ("compact", .bool true)]

/-- The command that runs an engine. -/
def commandTemplate : Engine → List String
  | swc => ["npx", "--yes", "-p", "@swc/core@\x7bversion\x7d", "-p", "@swc/cli", "swc",
      "\x7binput\x7d", "--config-file", "\x7bconfig\x7d", "--filename", "\x7bfilename\x7d"]
  | terser => ["npx", "--yes", "terser@\x7bversion\x7d", "\x7binput\x7d", "--config-file",
      "\x7bconfig\x7d"]
  | babel => ["npx", "--yes", "-p", "@babel/core@\x7bversion\x7d", "-p", "@babel/cli", "babel",
      "\x7binput\x7d", "--config-file", "\x7bconfig\x7d", "--filename", "\x7bfilename\x7d"]

/-- The engine of a name, in any case of letters and with blanks around it. -/
def parse (text : String) : Except SpecFault Engine :=
  let name := Text.toLowerAscii (Text.trim text)
  match all.find? fun engine => engine.name == name with
  | some engine => .ok engine
  | none => .error (.unknownEngine name)

/-- The engine that a JSON value names. -/
def ofJson (value : Json) : Except Json.Mismatch Engine :=
  Json.decodeAlternative (all.map fun engine => (engine.name, engine)) value

end Engine

/-- An engine of a version. -/
structure EngineSpec where
  engine : Engine
  version : String
  deriving DecidableEq, Repr

namespace EngineSpec

/-- The specification that is meant when none is given. -/
def default : EngineSpec :=
  ⟨.swc, Engine.swc.defaultVersion⟩

/-- The text of a specification. -/
def text (spec : EngineSpec) : String :=
  spec.engine.name ++ "@" ++ spec.version

/-- Whether a character may stand in a version. -/
def isVersionChar (c : Char) : Bool :=
  Text.isAsciiLetter c || Text.isAsciiDigit c || c == '.' || c == '-' || c == '+'

/-- Whether a text is a version: a digit and then letters, digits, points, dashes and pluses. -/
def isVersion (version : String) : Bool :=
  match version.toList with
  | [] => false
  | first :: rest => Text.isAsciiDigit first && (first :: rest).all isVersionChar

/-- Reads a specification: a name, and after the first `@` a version. -/
def parse (text : String) : Except SpecFault EngineSpec :=
  let trimmed := Text.trim text
  match Text.splitOnce? '@' trimmed with
  | none => do
    let engine ← Engine.parse trimmed
    .ok ⟨engine, engine.defaultVersion⟩
  | some (name, version) => do
    let engine ← Engine.parse name
    if isVersion version then .ok ⟨engine, version⟩ else .error (.invalidVersion version)

/-- A specification as a JSON value. -/
def toJson (spec : EngineSpec) : Json :=
  .object [("engine", .text spec.engine.name), ("version", .text spec.version)]

/-- The specification that a JSON value holds. -/
def ofJson (value : Json) : Except Json.Mismatch EngineSpec := do
  let (engine, version) ← Json.decodePair "EngineSpec" "engine" "version" Engine.ofJson
    Json.decodeText value
  .ok ⟨engine, version⟩

end EngineSpec

end ShapeAudit.Transform
