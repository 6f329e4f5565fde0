import ShapeAudit.Process.Word

/-!
Shell scripts: calls of commands, joined by their statuses or by pipes, grouped and branched.
-/

namespace ShapeAudit.Process

/-- A redirection of a channel: from a file, to a file, or to where another channel leads. -/
inductive Redirect where
  | from (target : Word)
  | into (channel : Nat) (append : Bool) (target : Word)
  | along (channel other : Nat)
  deriving DecidableEq, Repr

/-- A script. -/
inductive Script where
  | nothing
  /-- A call of a command, with variables that are given values before it. -/
  | call (settings : List (String × Word)) (words : List Word) (redirects : List Redirect)
  /-- Turns success into failure and back. -/
  | negation (script : Script)
  /-- The second runs if the first succeeds. -/
  | both (first second : Script)
  /-- The second runs if the first fails. -/
  | either (first second : Script)
  /-- The second runs after the first. -/
  | sequence (first second : Script)
  /-- The output of the first is the input of the second. -/
  | pipe (first second : Script)
  /-- A group; one that runs apart leaves the variables alone and ends by itself. -/
  | group (apart : Bool) (script : Script) (redirects : List Redirect)
  /-- The second runs if the first succeeds, and else the third. -/
  | branch (condition yes no : Script)

namespace Script

/-- The word that a sign is, without quotes. -/
def keyword? : Sign → Option String
  | .word word => word.bare?
  | _ => none

/-- Whether a sign is a keyword. -/
def isKeyword (text : String) (sign : Sign) : Bool :=
  keyword? sign == some text

/-- Drops a keyword that has to stand at the beginning. -/
def expect? (text : String) : List Sign → Option (List Sign)
  | sign :: rest => if isKeyword text sign then some rest else none
  | [] => none

/-- The redirection of a channel that an operator and its target ask for. -/
def redirect? (channel : Nat) (operator : String) (target : Word) : Option Redirect :=
  match operator with
  | "<" => some (.from target)
  | ">>" => some (.into channel true target)
  | ">&" => (target.bare?).bind fun text =>
      match text with
      | "0" => some (.along channel 0)
      | "1" => some (.along channel 1)
      | "2" => some (.along channel 2)
      | _ => none
  | "<&" => none
  | _ => some (.into channel false target)

/-- Reads redirections after a group. -/
def redirects : List Sign → Option (List Redirect × List Sign)
  | .redirection channel operator :: .word target :: rest => do
    let first ← redirect? channel operator target
    let (others, after) ← redirects rest
    some (first :: others, after)
  | signs => some ([], signs)

/-- Reads the rest of a call, whose parts so far are given last first. -/
def call? (settings : List (String × Word)) (words : List Word) (found : List Redirect) :
    List Sign → Option (Script × List Sign)
  | .word word :: rest =>
    match if words.isEmpty then word.assignment? else none with
    | some setting => call? (setting :: settings) words found rest
    | none => call? settings (word :: words) found rest
  | .redirection channel operator :: .word target :: rest => do
    call? settings words ((← redirect? channel operator target) :: found) rest
  | .redirection _ _ :: _ => none
  | signs =>
    if settings.isEmpty && words.isEmpty && found.isEmpty then none
    else some (.call settings.reverse words.reverse found.reverse, signs)

/-- Whether a sign ends a list of commands without being a part of it. -/
def endsList (sign : Sign) : Bool :=
  sign == .operator ")" ||
    ((keyword? sign).any fun text => ["\x7d", "then", "elif", "else", "fi"].contains text)

/-- Drops the ends of lines. -/
def skipLines : List Sign → List Sign
  | .operator "\n" :: rest => skipLines rest
  | signs => signs

mutual

/-- Reads a list of commands. -/
def list? : Nat → List Sign → Option (Script × List Sign)
  | 0, _ => none
  | fuel + 1, signs =>
    match skipLines signs with
    | [] => some (.nothing, [])
    | sign :: rest =>
      if endsList sign then some (.nothing, sign :: rest)
      else do
        let (first, after) ← chain? fuel (sign :: rest)
        match after with
        | .operator ";" :: left | .operator "\n" :: left =>
          let (second, others) ← list? fuel left
          some (.sequence first second, others)
        | left => some (first, left)

/-- Reads commands that are joined by their statuses. -/
def chain? : Nat → List Sign → Option (Script × List Sign)
  | 0, _ => none
  | fuel + 1, signs => do
    let (first, after) ← pipeline? fuel signs
    links? fuel first after

/-- Reads what joins on to commands by their statuses. -/
def links? : Nat → Script → List Sign → Option (Script × List Sign)
  | 0, _, _ => none
  | fuel + 1, before, .operator "&&" :: rest => do
    let (next, after) ← pipeline? fuel (skipLines rest)
    links? fuel (.both before next) after
  | fuel + 1, before, .operator "||" :: rest => do
    let (next, after) ← pipeline? fuel (skipLines rest)
    links? fuel (.either before next) after
  | _ + 1, before, signs => some (before, signs)

/-- Reads commands that are joined by pipes. -/
def pipeline? : Nat → List Sign → Option (Script × List Sign)
  | 0, _ => none
  | fuel + 1, signs =>
    match expect? "!" signs with
    | some rest => do
      let (script, after) ← pipeline? fuel rest
      some (.negation script, after)
    | none => do
      let (first, after) ← command? fuel signs
      match after with
      | .operator "|" :: rest =>
        let (second, left) ← pipeline? fuel (skipLines rest)
        some (.pipe first second, left)
      | left => some (first, left)

/-- Reads one command. -/
def command? : Nat → List Sign → Option (Script × List Sign)
  | 0, _ => none
  | fuel + 1, signs =>
    match signs with
    | .operator "(" :: rest => do
      let (script, after) ← list? fuel rest
      match after with
      | .operator ")" :: left =>
        let (found, others) ← redirects left
        some (.group true script found, others)
      | _ => none
    | sign :: rest =>
      if isKeyword "\x7b" sign then do
        let (script, after) ← list? fuel rest
        let (found, others) ← redirects (← expect? "\x7d" after)
        some (.group false script found, others)
      else if isKeyword "if" sign then branch? fuel rest
      else call? [] [] [] (sign :: rest)
    | [] => none

/-- Reads a branch after the keyword that opens it. -/
def branch? : Nat → List Sign → Option (Script × List Sign)
  | 0, _ => none
  | fuel + 1, signs => do
    let (condition, after) ← list? fuel signs
    let (yes, left) ← list? fuel (← expect? "then" after)
    match left with
    | sign :: others =>
      if isKeyword "fi" sign then some (.branch condition yes .nothing, others)
      else if isKeyword "elif" sign then do
        let (no, rest) ← branch? fuel others
        some (.branch condition yes no, rest)
      else if isKeyword "else" sign then do
        let (no, rest) ← list? fuel others
        some (.branch condition yes no, ← expect? "fi" rest)
      else none
    | [] => none

end

/-- Reads a script. -/
def parse? (text : String) : Option Script := do
  let signs ← Sign.read (text.length + 1) text.toList
  match ← list? (6 * signs.length + 6) signs with
  | (script, []) => some script
  | _ => none

end Script

end ShapeAudit.Process
