import ShapeAudit.Text.Count

/-!
Escapes with a backslash, and formats whose directives are filled in from arguments.
-/

namespace ShapeAudit.Process

/-! ## Escapes -/

/-- The value of an octal digit. -/
def octalValue? (c : Char) : Option Nat :=
  if '0' ≤ c && c ≤ '7' then some (c.toNat - 48) else none

/-- Reads at most so many octal digits onto a value. -/
def octal : Nat → Nat → List Char → Nat × List Char
  | limit + 1, value, c :: rest =>
    match octalValue? c with
    | some digit => octal limit (value * 8 + digit) rest
    | none => (value, c :: rest)
  | _, value, chars => (value, chars)

/-- What stands after a backslash: octets and the rest; nothing when the output ends here. A number
may have a zero before its three octal digits if that is asked for. -/
def escape (zeroBefore : Bool) : List Char → Option (List UInt8 × List Char)
  | [] => some ([92], [])
  | 'a' :: rest => some ([7], rest)
  | 'b' :: rest => some ([8], rest)
  | 'f' :: rest => some ([12], rest)
  | 'n' :: rest => some ([10], rest)
  | 'r' :: rest => some ([13], rest)
  | 't' :: rest => some ([9], rest)
  | 'v' :: rest => some ([11], rest)
  | '\\' :: rest => some ([92], rest)
  | 'c' :: _ => none
  | c :: rest =>
    if (octalValue? c).isSome then
      let (value, after) := octal (if zeroBefore && c == '0' then 4 else 3) 0 (c :: rest)
      some ([value.toUInt8], after)
    else some (92 :: Text.octetsOf c, rest)

/-- The octets of a text with escapes, and whether an escape ended the output. -/
def unescape : Nat → List Char → List UInt8 × Bool
  | 0, _ => ([], false)
  | _, [] => ([], false)
  | fuel + 1, '\\' :: rest =>
    match escape true rest with
    | none => ([], true)
    | some (octets, after) =>
      let (others, ended) := unescape fuel after
      (octets ++ others, ended)
  | fuel + 1, c :: rest =>
    let (others, ended) := unescape fuel rest
    (Text.octetsOf c ++ others, ended)

/-- The octets of a text with escapes, and whether an escape ended the output. -/
def unescaped (text : String) : List UInt8 × Bool :=
  unescape (text.length + 1) text.toList

/-! ## Formats -/

/-- A part of a format. -/
inductive Directive where
  /-- Octets that are written as they are. -/
  | literal (octets : List UInt8)
  /-- The next argument, written in a way that a letter names. -/
  | argument (letter : Char)
  /-- The end of all output. -/
  | halt
  deriving DecidableEq, Repr

/-- The directives of a format. -/
def directives : Nat → List Char → List Directive
  | 0, _ => []
  | _, [] => []
  | fuel + 1, '\\' :: '"' :: rest => .literal [34] :: directives fuel rest
  | fuel + 1, '\\' :: rest =>
    match escape false rest with
    | none => [.halt]
    | some (octets, after) => .literal octets :: directives fuel after
  | fuel + 1, '%' :: '%' :: rest => .literal [37] :: directives fuel rest
  | fuel + 1, '%' :: letter :: rest => .argument letter :: directives fuel rest
  | fuel + 1, c :: rest => .literal (Text.octetsOf c) :: directives fuel rest

/-- An argument in the way that a letter names, and whether it ended the output. -/
def Directive.write (letter : Char) (argument : String) : List UInt8 × Bool :=
  match letter with
  | 'b' => unescaped argument
  | 'c' => (Text.octets (String.ofList (argument.toList.take 1)), false)
  | 's' => (Text.octets argument, false)
  | _ => (Text.octets (Text.decimal ((Text.count argument).toOption.getD 0)), false)

/-- Fills in a format once: the octets, the arguments that are left, and whether the output ended. -/
def fillOnce : List Directive → List String → List UInt8 × List String × Bool
  | [], arguments => ([], arguments, false)
  | .halt :: _, arguments => ([], arguments, true)
  | .literal octets :: rest, arguments =>
    let (others, left, ended) := fillOnce rest arguments
    (octets ++ others, left, ended)
  | .argument letter :: rest, arguments =>
    let (octets, stopped) := Directive.write letter (arguments.headD "")
    if stopped then (octets, arguments.tail, true)
    else
      let (others, left, ended) := fillOnce rest arguments.tail
      (octets ++ others, left, ended)

/-- Fills in a format again and again until no argument is left. -/
def fillAll (format : List Directive) : Nat → List String → List UInt8
  | 0, _ => []
  | fuel + 1, arguments =>
    let (octets, left, ended) := fillOnce format arguments
    if ended || left.isEmpty || left.length == arguments.length then octets
    else octets ++ fillAll format fuel left

/-- The octets of a format filled in from arguments. -/
def fill (format : String) (arguments : List String) : List UInt8 :=
  fillAll (directives (format.length + 1) format.toList) (arguments.length + 1) arguments

end ShapeAudit.Process
