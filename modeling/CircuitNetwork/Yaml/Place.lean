namespace CircuitNetwork.Yaml

/-!
# Places in a text

A text is read by a cursor that knows its line and column. Lines end at any of
six line breaks, and blanks are spaces and tabs.
-/

/-- A place in a text. All counts start from zero. -/
structure Mark where
  index : Nat := 0
  line : Nat := 0
  column : Nat := 0
  deriving Repr, DecidableEq, Inhabited

/-- Whether a character is a blank. -/
def isBlank (c : Char) : Bool := c = ' ' || c = '\t'

/-- Whether a character ends a line. -/
def isBreak (c : Char) : Bool :=
  c = '\r' || c = '\n' || c = '\x85' || c = '\u2028' || c = '\u2029'

/-- Whether a character ends a word. The end of the text does. -/
def endsWord (c : Option Char) : Bool := c.all fun c => isBlank c || isBreak c

/-- Whether a character ends a line. The end of the text does. -/
def endsLine (c : Option Char) : Bool := c.all isBreak

/-- Whether a character may stand in a document. Control characters may not. -/
def isAllowed (c : Char) : Bool :=
  let code := c.toNat
  [0x9, 0xa, 0xd, 0x85].contains code ||
    (0x20 ≤ code && code ≤ 0x7e) || (0xa0 ≤ code && code ≤ 0xfffd) || 0x10000 ≤ code

/-- A text from a place on, with the number of line breaks since the last character that is neither a
break nor a blank. -/
structure Cursor where
  rest : List Char
  mark : Mark := {}
  breaks : Nat := 0
  deriving Repr, DecidableEq, Inhabited

namespace Cursor

/-- The line of a cursor. -/
def line (cursor : Cursor) : Nat := cursor.mark.line

/-- The column of a cursor. -/
def column (cursor : Cursor) : Nat := cursor.mark.column

/-- The character at a cursor. -/
def here (cursor : Cursor) : Option Char := cursor.rest.head?

/-- The character some places ahead of a cursor. -/
def ahead (cursor : Cursor) (distance : Nat) : Option Char := cursor.rest[distance]?

/-- Pass over some characters of a line. -/
def skipMany (cursor : Cursor) (count : Nat) : Cursor :=
  let passed := cursor.rest.take count
  { rest := cursor.rest.drop count
    mark := {
      index := cursor.mark.index + passed.length
      line := cursor.mark.line
      column := cursor.mark.column + passed.length }
    breaks := if passed.all isBlank then cursor.breaks else 0 }

/-- Pass over a character of a line. -/
def skip (cursor : Cursor) : Cursor := cursor.skipMany 1

/-- Pass over a line break. -/
def skipBreak (cursor : Cursor) : Cursor :=
  let after (rest : List Char) (length : Nat) : Cursor :=
    { rest := rest
      mark := { index := cursor.mark.index + length, line := cursor.mark.line + 1 }
      breaks := cursor.breaks + 1 }
  match cursor.rest with
  | '\r' :: '\n' :: rest => after rest 2
  | c :: rest => if isBreak c then after rest 1 else cursor
  | [] => cursor

/-- The text of the line break at a cursor. Only two of the breaks are kept as they are. -/
def breakText (cursor : Cursor) : List Char :=
  match cursor.here with
  | some c => if c = '\u2028' || c = '\u2029' then [c] else ['\n']
  | none => []

/-- The characters up to the first one that is not of a class, and the cursor behind them. No line
break is of the class. -/
def span (cursor : Cursor) (inClass : Char → Bool) : List Char × Cursor :=
  let run := cursor.rest.takeWhile inClass
  (run, cursor.skipMany run.length)

/-- Pass over the blanks at a cursor. -/
def skipBlanks (cursor : Cursor) : Cursor := (cursor.span isBlank).2

/-- Pass over the rest of a line, but not over its break. -/
def skipLine (cursor : Cursor) : Cursor := (cursor.span fun c => !isBreak c).2

/-- Whether a line starts here with a mark of three equal characters. -/
def atRule (cursor : Cursor) (c : Char) : Bool :=
  cursor.column = 0 && [c, c, c].isPrefixOf cursor.rest && endsWord (cursor.ahead 3)

/-- Whether the line of a cursor starts or ends a document. -/
def atDocumentRule (cursor : Cursor) : Bool := cursor.atRule '-' || cursor.atRule '.'

end Cursor

end CircuitNetwork.Yaml
