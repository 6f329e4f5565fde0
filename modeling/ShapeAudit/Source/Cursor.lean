import ShapeAudit.Source.Lexeme
import ShapeAudit.Source.Tree

/-!
A cursor in a source: the text that is left, its place, the comments that have been passed since the
last token, what is known of the next token, and the tokens that have been taken.
-/

namespace ShapeAudit.Source

/-- What is known of what follows a cursor. -/
inductive Mark where
  /-- Nothing yet: blanks and comments may follow. -/
  | unseen
  /-- A token begins at the cursor, or the source ends there. -/
  | token
  /-- The statement ends at the cursor although no semicolon is written. -/
  | semicolon
  /-- The question mark of a conditional expression stands at the cursor. -/
  | question
  deriving DecidableEq

/-- A token that has been taken. -/
structure Taken where
  place : Place
  spelling : String
  /-- The place right after the token. -/
  after : Place
  deriving DecidableEq

/-- A cursor in a source. -/
structure Cursor where
  rest : List Char
  place : Place
  /-- The comments that have been passed since the last token, the latest first. -/
  passed : List Tree
  mark : Mark
  /-- The tokens that have been taken, the latest first. -/
  taken : List Taken

namespace Cursor

/-- The cursor at the beginning of a source. -/
def start (chars : List Char) : Cursor :=
  ⟨chars, ⟨1, 1⟩, [], .unseen, []⟩

/-- The place after a character. -/
def placeAfter (place : Place) (c : Char) : Place :=
  if c = '\n' then ⟨place.line + 1, 1⟩ else ⟨place.line, place.column + Text.width c⟩

/-- Moves over a number of characters, after which nothing is known of what follows. -/
def advance : Nat → Cursor → Cursor
  | 0, cursor => { cursor with mark := .unseen }
  | count + 1, cursor =>
    match cursor.rest with
    | [] => { cursor with mark := .unseen }
    | c :: rest => advance count
        ⟨rest, placeAfter cursor.place c, cursor.passed, .unseen, cursor.taken⟩

/-- Moves to a text that is left later on. -/
def advanceTo (rest : List Char) (cursor : Cursor) : Cursor :=
  cursor.advance (cursor.rest.length - rest.length)

/-- The text of the next characters. -/
def spelling (length : Nat) (cursor : Cursor) : String :=
  String.ofList (cursor.rest.take length)

/-- Takes a number of characters as a token. -/
def take (length : Nat) (cursor : Cursor) : Cursor :=
  let moved := cursor.advance length
  { moved with taken := ⟨cursor.place, cursor.spelling length, moved.place⟩ :: cursor.taken }

/-- Passes a comment. -/
def passComment (kind : Kind) (length : Nat) (cursor : Cursor) : Cursor :=
  let moved := cursor.advance length
  { moved with passed := .leaf kind cursor.place (cursor.spelling length) :: cursor.passed }

end Cursor

end ShapeAudit.Source
