import CircuitNetwork.Yaml.Problem

namespace CircuitNetwork.Yaml

/-!
# Scalars

A scalar is plain, in single or double quotes, or a block of lines. Plain and
quoted scalars may go over several lines, which are folded: a single line break
counts as a space, and of several ones the first is dropped.
-/

/-- A text that is folded while it is read, each part in reverse. The gap since its last word is
pending: blanks, or line breaks of which the first is kept apart. -/
structure Folding where
  text : List Char := []
  blanks : List Char := []
  firstBreak : List Char := []
  moreBreaks : List Char := []
  broken : Bool := false
  deriving Repr, DecidableEq, Inhabited

namespace Folding

/-- Put the pending gap into the text. -/
def join (folding : Folding) : Folding :=
  let gap :=
    if !folding.broken then folding.blanks
    else if folding.firstBreak ≠ ['\n'] then folding.moreBreaks ++ folding.firstBreak
    else if folding.moreBreaks.isEmpty then [' ']
    else folding.moreBreaks
  { text := gap ++ folding.text }

/-- Add a word to the text. -/
def add (folding : Folding) (word : List Char) : Folding :=
  { folding with text := word.reverse ++ folding.text }

/-- Add a blank to the gap. Blanks around line breaks are dropped. -/
def addBlank (folding : Folding) (c : Char) : Folding :=
  if folding.broken then folding else { folding with blanks := c :: folding.blanks }

/-- Add a line break to the gap. -/
def addBreak (folding : Folding) (lineBreak : List Char) : Folding :=
  if folding.broken then
    { folding with moreBreaks := lineBreak ++ folding.moreBreaks }
  else
    { folding with blanks := [], firstBreak := lineBreak, broken := true }

/-- The text that was read. -/
def result (folding : Folding) : String := String.ofList folding.text.reverse

end Folding

/-- Read the gap behind a word. In a plain scalar there must be no tabs in the indentation. -/
def readGap
    (start : Mark)
    (indent : Option Nat) :
    Nat → Cursor → Folding → Except Malformed (Cursor × Folding)
  | 0, cursor, folding => .ok (cursor, folding)
  | fuel + 1, cursor, folding =>
      match cursor.here with
      | none => .ok (cursor, folding)
      | some c =>
          if isBlank c then
            if folding.broken && c = '\t' && indent.any (cursor.column < ·) then
              .error (.inText start cursor .tabInIndentation)
            else
              readGap start indent fuel cursor.skip (folding.addBlank c)
          else if isBreak c then
            readGap start indent fuel cursor.skipBreak (folding.addBreak cursor.breakText)
          else
            .ok (cursor, folding)

/-- The word of a plain scalar at the start of a text. A colon ends it if a blank follows, and the
characters of flow collections do inside brackets. -/
def plainWord (inFlow : Bool) : List Char → List Char
  | [] => []
  | c :: rest =>
      if isBlank c || isBreak c || (c = ':' && endsWord rest.head?) ||
          (inFlow && [',', '?', '[', ']', '\x7b', '\x7d'].contains c) then
        []
      else
        c :: plainWord inFlow rest

/-- Read a plain scalar up to a place that ends it. -/
def readPlain
    (start : Mark)
    (inFlow : Bool)
    (indent : Nat) :
    Nat → Cursor → Folding → Except Malformed (Cursor × Folding)
  | 0, cursor, folding => .ok (cursor, folding)
  | fuel + 1, cursor, folding =>
      if cursor.atDocumentRule || cursor.here = some '#' then
        .ok (cursor, folding)
      else
        let word := plainWord inFlow cursor.rest
        let folding := if word.isEmpty then folding else folding.join.add word
        let cursor := cursor.skipMany word.length
        if cursor.here = none || !endsWord cursor.here then
          .ok (cursor, folding)
        else do
          let (cursor, folding) ← readGap start (some indent) cursor.rest.length cursor folding
          if !inFlow && cursor.column < indent then
            return (cursor, folding)
          else
            readPlain start inFlow indent fuel cursor folding

/-- The value of a hexadecimal digit. -/
def hexDigit? (c : Char) : Option Nat :=
  if '0' ≤ c && c ≤ '9' then some (c.toNat - 0x30)
  else if 'a' ≤ c && c ≤ 'f' then some (c.toNat - 0x57)
  else if 'A' ≤ c && c ≤ 'F' then some (c.toNat - 0x37)
  else none

/-- The character that a single letter stands for behind a backslash. -/
def escaped? : Char → Option Char
  | '0' => some '\x00'
  | 'a' => some '\x07'
  | 'b' => some '\x08'
  | 't' => some '\t'
  | '\t' => some '\t'
  | 'n' => some '\n'
  | 'v' => some '\x0b'
  | 'f' => some '\x0c'
  | 'r' => some '\r'
  | 'e' => some '\x1b'
  | ' ' => some ' '
  | '\x22' => some '\x22'
  | '\x27' => some '\x27'
  | '\\' => some '\\'
  | 'N' => some '\x85'
  | '_' => some '\xa0'
  | 'L' => some '\u2028'
  | 'P' => some '\u2029'
  | _ => none

/-- The number of digits of the code that a letter announces behind a backslash. -/
def codeLength? : Char → Option Nat
  | 'x' => some 2
  | 'u' => some 4
  | 'U' => some 8
  | _ => none

/-- Read what follows a backslash: one character for a letter, or the code of a character. -/
def readEscape (start : Mark) (cursor : Cursor) : Except Malformed (Cursor × Char) :=
  match cursor.ahead 1 with
  | none => .error (.inText start cursor .unknownEscape)
  | some letter =>
      match escaped? letter, codeLength? letter with
      | some c, _ => .ok (cursor.skipMany 2, c)
      | none, none => .error (.inText start cursor .unknownEscape)
      | none, some length =>
          let cursor := cursor.skipMany 2
          match (cursor.rest.take length).mapM hexDigit? with
          | none => .error (.inText start cursor .badHexadecimal)
          | some digits =>
              let code := digits.foldl (fun code digit => 16 * code + digit) 0
              if digits.length < length then
                .error (.inText start cursor .badHexadecimal)
              else if (0xd800 ≤ code && code ≤ 0xdfff) || 0x10ffff < code then
                .error (.inText start cursor .badCharacterCode)
              else
                .ok (cursor.skipMany length, Char.ofNat code)

/-- Read a word in quotes. A line break behind a backslash ends it as well, without a space. -/
def readQuotedWord
    (start : Mark)
    (quote : Char) :
    Nat → Cursor → List Char → Except Malformed (Cursor × List Char × Bool)
  | 0, cursor, word => .ok (cursor, word.reverse, false)
  | fuel + 1, cursor, word =>
      match cursor.here with
      | none => .ok (cursor, word.reverse, false)
      | some c =>
          if endsWord (some c) then
            .ok (cursor, word.reverse, false)
          else if c = quote then
            if quote = '\x27' && cursor.ahead 1 = some quote then
              readQuotedWord start quote fuel (cursor.skipMany 2) (quote :: word)
            else
              .ok (cursor, word.reverse, false)
          else if quote = '\x22' && c = '\\' then
            if (cursor.ahead 1).any isBreak then
              .ok (cursor.skip.skipBreak, word.reverse, true)
            else do
              let (cursor, c) ← readEscape start cursor
              readQuotedWord start quote fuel cursor (c :: word)
          else
            readQuotedWord start quote fuel cursor.skip (c :: word)

/-- Read the inside of quotes and the quote behind it. -/
def readQuoted
    (start : Mark)
    (quote : Char) :
    Nat → Cursor → Folding → Except Malformed (Cursor × Folding)
  | 0, cursor, _ => .error (.inText start cursor .endInQuotes)
  | fuel + 1, cursor, folding =>
      if cursor.atDocumentRule then
        .error (.inText start cursor .ruleInQuotes)
      else if cursor.here = none then
        .error (.inText start cursor .endInQuotes)
      else do
        let (cursor, word, escapedBreak) ← readQuotedWord start quote cursor.rest.length cursor []
        let folding := folding.add word
        if cursor.here = some quote then
          return (cursor.skip, folding)
        else
          let folding := { folding with broken := escapedBreak }
          let (cursor, folding) ← readGap start none cursor.rest.length cursor folding
          readQuoted start quote fuel cursor folding.join

/-- What becomes of the line breaks at the end of a block. -/
inductive Chomping where
  | strip
  | clip
  | keep
  deriving Repr, DecidableEq, Inhabited

/-- The mark for the end of a block at a cursor. -/
def readChomping (cursor : Cursor) : Cursor × Option Chomping :=
  match cursor.here with
  | some '-' => (cursor.skip, some .strip)
  | some '+' => (cursor.skip, some .keep)
  | _ => (cursor, none)

/-- The digit for the indentation of a block at a cursor, or zero if there is none. -/
def readIncrement (start : Mark) (cursor : Cursor) : Except Malformed (Cursor × Nat) :=
  match cursor.here with
  | some c =>
      if c = '0' then .error (.inText start cursor .zeroIndentation)
      else if c.isDigit then .ok (cursor.skip, c.toNat - 0x30)
      else .ok (cursor, 0)
  | none => .ok (cursor, 0)

/-- The marks behind the sign of a block, in either order. -/
def readHeader (start : Mark) (cursor : Cursor) : Except Malformed (Cursor × Chomping × Nat) := do
  let (cursor, chomping) := readChomping cursor
  let (cursor, increment) ← readIncrement start cursor
  match chomping with
  | some chomping => return (cursor, chomping, increment)
  | none =>
      let (cursor, chomping) := if increment = 0 then (cursor, none) else readChomping cursor
      return (cursor, chomping.getD .clip, increment)

/-- Pass over the rest of a line that may hold a comment only, and over its break. -/
def finishLine (start : Mark) (problem : Problem) (cursor : Cursor) : Except Malformed Cursor :=
  let cursor := cursor.skipBlanks
  let cursor := if cursor.here = some '#' then cursor.skipLine else cursor
  if endsLine cursor.here then .ok cursor.skipBreak else .error (.inText start cursor problem)

/-- Pass over empty lines and the indentation of the next line, and give their breaks in reverse and
the greatest column that was reached. No indentation stands for one that is not known yet. -/
def readIndentation
    (start : Mark)
    (indent : Option Nat) :
    Nat → Cursor → List Char → Nat → Except Malformed (Cursor × List Char × Nat)
  | 0, cursor, breaks, widest => .ok (cursor, breaks, widest)
  | fuel + 1, cursor, breaks, widest =>
      let spaces := (cursor.rest.takeWhile (· = ' ')).length
      let wanted := indent.elim spaces (· - cursor.column)
      let cursor := cursor.skipMany (min spaces wanted)
      let widest := max widest cursor.column
      if indent.all (cursor.column < ·) && cursor.here = some '\t' then
        .error (.inText start cursor .tabInBlock)
      else if cursor.here.any isBreak then
        readIndentation start indent fuel cursor.skipBreak (cursor.breakText ++ breaks) widest
      else
        .ok (cursor, breaks, widest)

/-- The lines of a block while they are read, in reverse: the text, the break behind the last line
and the breaks of the empty lines that follow. -/
structure Block where
  text : List Char := []
  lastBreak : List Char := []
  emptyLines : List Char := []
  blankLine : Bool := false
  deriving Repr, DecidableEq, Inhabited

/-- Add a line to a block. In a folded block, the break between two lines that do not start with a
blank is a space, or nothing if there are empty lines between them. -/
def Block.add (block : Block) (folded : Bool) (line : List Char) : Block :=
  let blankLine := line.head?.any isBlank
  let between :=
    if folded && !block.blankLine && !blankLine && block.lastBreak = ['\n'] then
      if block.emptyLines.isEmpty then [' '] else block.emptyLines
    else
      block.emptyLines ++ block.lastBreak
  { text := line.reverse ++ between ++ block.text, blankLine := blankLine }

/-- The text of a block. -/
def Block.result (block : Block) : Chomping → String
  | .strip => String.ofList block.text.reverse
  | .clip => String.ofList (block.lastBreak ++ block.text).reverse
  | .keep => String.ofList (block.emptyLines ++ block.lastBreak ++ block.text).reverse

/-- Read the lines of a block. -/
def readLines
    (start : Mark)
    (folded : Bool)
    (indent : Nat) :
    Nat → Cursor → Block → Except Malformed (Cursor × Block)
  | 0, cursor, block => .ok (cursor, block)
  | fuel + 1, cursor, block =>
      if cursor.column = indent && cursor.here ≠ none then do
        let (line, cursor) := cursor.span fun c => !isBreak c
        let block := block.add folded line
        let (lastBreak, cursor) := (cursor.breakText, cursor.skipBreak)
        let (cursor, emptyLines, _) ←
          readIndentation start (some indent) (cursor.rest.length + 1) cursor [] 0
        readLines start folded indent fuel cursor
          { block with lastBreak := lastBreak, emptyLines := emptyLines }
      else
        .ok (cursor, block)

/-- Read a block from its sign on, inside an indentation, which is none at the top. -/
def readBlock
    (parent : Option Nat)
    (folded : Bool)
    (cursor : Cursor) :
    Except Malformed (Cursor × String) := do
  let start := cursor.mark
  let (cursor, chomping, increment) ← readHeader start cursor.skip
  let cursor ← finishLine start .textAfterIndicator cursor
  let given := if increment = 0 then none else some (parent.getD 0 + increment)
  let (cursor, emptyLines, widest) ←
    readIndentation start given (cursor.rest.length + 1) cursor [] 0
  let indent := given.getD (max widest (max 1 (parent.elim 0 (· + 1))))
  let (cursor, block) ←
    readLines start folded indent cursor.rest.length cursor { emptyLines := emptyLines }
  return (cursor, block.result chomping)

end CircuitNetwork.Yaml
