import ShapeAudit.Text

/-!
The classes of characters that the tokens of a source are made of.
-/

namespace ShapeAudit.Source

/-- The end mark of a source: a character with this code ends whatever is being looked ahead for. -/
def isNul (c : Char) : Bool :=
  c.toNat == 0

/-- The blanks of ASCII: tab, the line and page breaks, and space. -/
def isSpace (c : Char) : Bool :=
  let n := c.toNat
  (9 ≤ n && n ≤ 13) || n == 32

/-- The two line breaks outside of ASCII. -/
def isWideBreak (c : Char) : Bool :=
  let n := c.toNat
  n == 0x2028 || n == 0x2029

/-- What ends a line when the end of a statement is sought. -/
def isBreak (c : Char) : Bool :=
  c == '\n' || isWideBreak c

/-- The space characters of Unicode, general category `Zs`. -/
def isWideSpace (c : Char) : Bool :=
  let n := c.toNat
  n == 0x20 || n == 0xA0 || n == 0x1680 || (0x2000 ≤ n && n ≤ 0x200A) || n == 0x202F ||
    n == 0x205F || n == 0x3000

/-- The invisible characters that count as blanks between tokens. -/
def isInvisible (c : Char) : Bool :=
  let n := c.toNat
  n == 0xFEFF || n == 0x2060 || n == 0x200B

/-- Whether a character may stand between two tokens without meaning. -/
def isSeparator (c : Char) : Bool :=
  isSpace c || isWideSpace c || isInvisible c || isWideBreak c

/-- The characters that no word contains although they are visible. -/
def isSign (c : Char) : Bool :=
  [':', ';', '\x60', '"', '\x27', '@', '#', '.', ',', '|', '^', '&', '<', '=', '>', '+', '-', '*',
    '/', '\\', '%', '?', '!', '~', '(', ')', '[', ']', '\x7b', '\x7d'].contains c

/-- Whether a character may stand inside a word. The wide line breaks may. -/
def isWordPart (c : Char) : Bool :=
  !(c.toNat < 0x20 || isSpace c || isWideSpace c || isSign c || isInvisible c)

/-- A letter, digit, `_` or `$` of ASCII. -/
def isPlainWordPart (c : Char) : Bool :=
  Text.isAsciiLetter c || Text.isAsciiDigit c || c == '_' || c == '$'

end ShapeAudit.Source
