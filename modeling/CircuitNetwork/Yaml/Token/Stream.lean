import CircuitNetwork.Yaml.Token.Property

namespace CircuitNetwork.Yaml

/-!
# Token streams

Tokens are read on demand. A word may turn out to be a key only when the colon
behind it is met, so the stream remembers the words that may still be keys and
reads on while the first token that waits is one of them. A key takes one line
and at most 1024 characters.
-/

/-- A word that may be a key: the number of its token, where it starts, and whether it must be a key
because only keys may stand at its indentation. -/
structure KeyCandidate where
  possible : Bool := false
  required : Bool := false
  number : Nat := 0
  mark : Mark := {}
  deriving Repr, DecidableEq, Inhabited

/-- The state of reading tokens. There is a candidate for each open bracket and one outside of them,
innermost first, and an index of their levels by the numbers of their tokens. No indentation is the
one in front of a document. -/
structure TokenStream where
  cursor : Cursor
  waiting : List Token := []
  taken : Nat := 0
  ready : Bool := false
  started : Bool := false
  indent : Option Nat := none
  outerIndents : List (Option Nat) := []
  depth : Nat := 0
  keyAllowed : Bool := false
  candidates : List KeyCandidate := []
  candidateLevels : List (Nat × Nat) := []
  deriving Repr, Inhabited

/-- Reading from a token stream. -/
abbrev Tokenizing := EStateM Malformed TokenStream

namespace TokenStream

/-- The greatest number of brackets that may be open, and of block collections. -/
def maxDepth : Nat := 10000

/-- The number of the next token to be added. -/
def nextNumber (stream : TokenStream) : Nat := stream.taken + stream.waiting.length

/-- Whether brackets are open. -/
def inFlow (stream : TokenStream) : Bool := 0 < stream.depth

/-- The candidate of the innermost level. -/
def candidate (stream : TokenStream) : KeyCandidate := stream.candidates.headD {}

/-- Replace the candidate of the innermost level. -/
def setCandidate (stream : TokenStream) (candidate : KeyCandidate) : TokenStream :=
  { stream with candidates := candidate :: stream.candidates.drop 1 }

/-- Forget which level the candidate with a token number is at. -/
def forget (stream : TokenStream) (number : Nat) : TokenStream :=
  { stream with candidateLevels := stream.candidateLevels.filter (·.1 ≠ number) }

/-- Add a token at the end of those that wait. -/
def append (stream : TokenStream) (kind : Token.Kind) (line : Nat) : TokenStream :=
  { stream with waiting := stream.waiting ++ [⟨kind, line⟩] }

/-- Put a token in front of the one with a number. -/
def insert (stream : TokenStream) (number : Nat) (kind : Token.Kind) (line : Nat) : TokenStream :=
  { stream with waiting := stream.waiting.insertIdx (number - stream.taken) ⟨kind, line⟩ }

/-- Read a token from the text, with a change of the cursor only. -/
def onCursor {α : Type} (read : Cursor → Except Malformed (Cursor × α)) : Tokenizing α := do
  match read (← get).cursor with
  | .ok (cursor, value) =>
      modify fun stream => { stream with cursor := cursor }
      return value
  | .error report => throw report

/-- Add a token that starts at a mark. -/
def push (kind : Token.Kind) (start : Mark) : Tokenizing Unit :=
  modify (·.append kind start.line)

/-- Allow keys at the next word, or not. -/
def allowKey (allowed : Bool) : Tokenizing Unit :=
  modify fun stream => { stream with keyAllowed := allowed }

/-- Whether a candidate may still become a key here. A required one must not be passed over. -/
def stillPossible (stream : TokenStream) (candidate : KeyCandidate) : Except Malformed Bool :=
  if !candidate.possible then
    .ok false
  else if candidate.mark.line < stream.cursor.line ||
      candidate.mark.index + 1024 < stream.cursor.mark.index then
    if candidate.required then .error (.inText candidate.mark stream.cursor .missingColon)
    else .ok false
  else
    .ok true

/-- Check the candidate at a level, counted from the outermost, and strike it if it is too far
back. -/
def checkCandidate (level : Nat) : Tokenizing Bool := do
  let stream ← get
  let place := stream.candidates.length - 1 - level
  match stream.candidates[place]? with
  | none => return false
  | some candidate =>
      match stream.stillPossible candidate with
      | .error report => throw report
      | .ok true => return true
      | .ok false =>
          let struck := { candidate with possible := false }
          set { stream with candidates := stream.candidates.set place struck }
          return false

/-- Give up the candidate of the innermost level. -/
def dropCandidate : Tokenizing Unit := do
  let stream ← get
  let candidate := stream.candidate
  if candidate.possible then
    if candidate.required then
      throw (.inText candidate.mark stream.cursor .missingColon)
    else
      set ((stream.setCandidate { candidate with possible := false }).forget candidate.number)

/-- Note that the next token may be a key. -/
def saveCandidate : Tokenizing Unit := do
  let stream ← get
  if stream.keyAllowed then
    let candidate : KeyCandidate := {
      possible := true
      required := !stream.inFlow && stream.indent = some stream.cursor.column
      number := stream.nextNumber
      mark := stream.cursor.mark }
    dropCandidate
    modify fun stream =>
      let stream := stream.setCandidate candidate
      let levels := stream.candidateLevels.filter (·.1 ≠ candidate.number)
      { stream with candidateLevels := (candidate.number, stream.candidates.length - 1) :: levels }

/-- Go into a bracket. -/
def openLevel : Tokenizing Unit := do
  let stream ← get
  if stream.depth + 1 > maxDepth then
    throw (.inText stream.cursor.mark stream.cursor .tooDeep)
  else
    let candidate : KeyCandidate := { number := stream.nextNumber, mark := stream.cursor.mark }
    set { stream with depth := stream.depth + 1, candidates := candidate :: stream.candidates }

/-- Go out of a bracket, if there is one. -/
def closeLevel : Tokenizing Unit :=
  modify fun stream =>
    if stream.inFlow then
      { stream.forget stream.candidate.number with
        depth := stream.depth - 1
        candidates := stream.candidates.drop 1 }
    else
      stream

/-- Start a block collection at a column that is further in, with a token in front of the one with a
number, or at the end. -/
def indentTo
    (column : Nat)
    (number : Option Nat)
    (kind : Token.Kind)
    (line : Nat) :
    Tokenizing Unit := do
  let stream ← get
  if !stream.inFlow && stream.indent.all (· < column) then
    if stream.outerIndents.length + 1 > maxDepth then
      throw (.inText stream.candidate.mark stream.cursor .tooDeep)
    else
      let stream := { stream with
        indent := some column
        outerIndents := stream.indent :: stream.outerIndents }
      match number with
      | some number => set (stream.insert number kind line)
      | none => set (stream.append kind line)

/-- The stream after the ends of the collections that are further in than a column. No column ends
all of them. -/
def closeBlocks (column : Option Nat) : List (Option Nat) → TokenStream → TokenStream
  | [], stream => stream
  | outer :: rest, stream =>
      if stream.indent.any fun indent => column.all (· < indent) then
        closeBlocks column rest
          { stream.append .blockEnd stream.cursor.line with indent := outer, outerIndents := rest }
      else
        stream

/-- End the block collections that are further in than a column. -/
def unindentTo (column : Option Nat) : Tokenizing Unit :=
  modify fun stream =>
    if stream.inFlow then stream else closeBlocks column stream.outerIndents stream

/-- Pass over a comment, and over further comments that only blanks and line breaks divide. -/
def skipComments : Nat → Cursor → Cursor
  | 0, cursor => cursor
  | fuel + 1, cursor =>
      let cursor := cursor.skipLine
      let gap := cursor.rest.takeWhile fun c => isBlank c || isBreak c
      if cursor.ahead gap.length = some '#' then
        skipComments fuel (passGap gap.length cursor)
      else
        cursor
where
  /-- Pass over blanks and line breaks of a total length. -/
  passGap : Nat → Cursor → Cursor
    | 0, cursor => cursor
    | fuel + 1, cursor =>
        if cursor.here = some '#' then cursor
        else if cursor.here.any isBreak then passGap fuel cursor.skipBreak
        else passGap fuel cursor.skip

/-- Pass over blanks, comments and line breaks up to the next token. Keys may start after a line
break outside of brackets, and tabs must not indent them. -/
def skipToToken (inFlow : Bool) : Nat → Bool → Cursor → Cursor × Bool
  | 0, keyAllowed, cursor => (cursor, keyAllowed)
  | fuel + 1, keyAllowed, cursor =>
      let cursor :=
        if inFlow || !keyAllowed then cursor.skipBlanks else (cursor.span (· = ' ')).2
      let cursor :=
        if cursor.here = some '#' then skipComments cursor.rest.length cursor else cursor
      if cursor.here.any isBreak then
        skipToToken inFlow fuel (keyAllowed || !inFlow) cursor.skipBreak
      else
        (cursor, keyAllowed)

/-- Pass over a comment on the line of a token that was just read. -/
def skipLineComment (cursor : Cursor) : Cursor :=
  let next := cursor.skipBlanks
  if cursor.breaks = 0 && next.here = some '#' then next.skipLine else cursor

/-- Go to the next token and end the collections that it is not part of. -/
def approach : Tokenizing Unit := do
  modify fun stream =>
    let (cursor, keyAllowed) :=
      skipToToken stream.inFlow (stream.cursor.rest.length + 1) stream.keyAllowed stream.cursor
    { stream with cursor := cursor, keyAllowed := keyAllowed }
  unindentTo (some (← get).cursor.column)

/-- Leave the collections of a document. -/
def leaveDocument : Tokenizing Unit := do
  unindentTo none
  dropCandidate
  allowKey false

/-- Read the start of the text. -/
def fetchStart : Tokenizing Unit :=
  modify fun stream =>
    { stream.append .streamStart 0 with started := true, keyAllowed := true, candidates := [{}] }

/-- Read the end of the text. The last line counts as ended. -/
def fetchEnd : Tokenizing Unit := do
  modify fun stream =>
    if stream.cursor.column = 0 then
      stream
    else
      let mark := stream.cursor.mark
      { stream with cursor.mark := { mark with line := mark.line + 1, column := 0 } }
  leaveDocument
  push .streamEnd (← get).cursor.mark

/-- Read a directive. -/
def fetchDirective : Tokenizing Unit := do
  leaveDocument
  let start := (← get).cursor.mark
  push (← onCursor readDirective) start

/-- Read the rule that starts or ends a document. -/
def fetchRule (kind : Token.Kind) : Tokenizing Unit := do
  leaveDocument
  let start := (← get).cursor.mark
  onCursor fun cursor => .ok (cursor.skipMany 3, ())
  push kind start

/-- Read a token of one character. -/
def fetchSign (kind : Token.Kind) : Tokenizing Unit := do
  let start := (← get).cursor.mark
  onCursor fun cursor => .ok (cursor.skip, ())
  push kind start

/-- Read an opening bracket. -/
def fetchOpening (kind : Token.Kind) : Tokenizing Unit := do
  saveCandidate
  openLevel
  allowKey true
  fetchSign kind

/-- Read a closing bracket. -/
def fetchClosing (kind : Token.Kind) : Tokenizing Unit := do
  dropCandidate
  closeLevel
  allowKey false
  fetchSign kind

/-- Read a comma. -/
def fetchComma : Tokenizing Unit := do
  dropCandidate
  allowKey true
  fetchSign .flowEntry

/-- Start a block collection at a dash, question mark or colon outside of brackets. -/
def startBlock (kind : Token.Kind) (problem : Problem) : Tokenizing Unit := do
  let stream ← get
  if !stream.inFlow then
    if stream.keyAllowed then indentTo stream.cursor.column none kind stream.cursor.line
    else throw (.atCursor stream.cursor problem)

/-- Read the dash of a sequence. -/
def fetchDash : Tokenizing Unit := do
  startBlock .blockSequenceStart .entryNotAllowed
  dropCandidate
  allowKey true
  fetchSign .blockEntry

/-- Read the question mark in front of a key. -/
def fetchQuestion : Tokenizing Unit := do
  startBlock .blockMappingStart .keyNotAllowed
  dropCandidate
  allowKey (!(← get).inFlow)
  fetchSign .key

/-- Read the colon in front of a value. The candidate, if there is one, is the key. -/
def fetchColon : Tokenizing Unit := do
  let stream ← get
  let candidate := stream.candidate
  if ← checkCandidate (stream.candidates.length - 1) then
    modify (·.insert candidate.number .key candidate.mark.line)
    indentTo candidate.mark.column (some candidate.number) .blockMappingStart candidate.mark.line
    modify fun stream =>
      (stream.setCandidate { candidate with possible := false }).forget candidate.number
    allowKey false
  else
    startBlock .blockMappingStart .valueNotAllowed
    allowKey (!(← get).inFlow)
  fetchSign .value

/-- Read a token that may be a key. -/
def fetchWord (read : Cursor → Except Malformed (Cursor × Token.Kind)) : Tokenizing Unit := do
  saveCandidate
  allowKey false
  let start := (← get).cursor.mark
  push (← onCursor read) start

/-- Read the token of a scalar in quotes. -/
def quotedToken (quote : Char) (cursor : Cursor) : Except Malformed (Cursor × Token.Kind) := do
  let (next, folding) ←
    readQuoted cursor.mark quote (cursor.rest.length + 1) cursor.skip {}
  return (next, .scalar folding.result false)

/-- Read a plain scalar. A key may follow if it ends before a line break. -/
def fetchPlain : Tokenizing Unit := do
  saveCandidate
  allowKey false
  let stream ← get
  let start := stream.cursor.mark
  let folding ← onCursor fun cursor =>
    readPlain start stream.inFlow (stream.indent.elim 0 (· + 1)) (cursor.rest.length + 1) cursor {}
  if folding.broken then allowKey true
  push (.scalar folding.result true) start

/-- Read a scalar that is a block of lines. -/
def fetchBlock (folded : Bool) : Tokenizing Unit := do
  dropCandidate
  allowKey true
  let stream ← get
  let text ← onCursor (readBlock stream.indent folded)
  push (.scalar text false) stream.cursor.mark

/-- Whether a plain scalar starts with a character, by what follows it. -/
def startsPlain (inFlow : Bool) (c : Char) (next : Option Char) : Bool :=
  if c = '-' then !next.any isBlank
  else if c = '?' || c = ':' then !inFlow && !endsWord next
  else !(isBlank c || ",[]\x7b\x7d#&*!|>'\"%@\x60".toList.contains c)

/-- Read a token inside a document. -/
def fetchInside (c : Char) : Tokenizing Unit := do
  let stream ← get
  let next := stream.cursor.ahead 1
  match c with
  | '[' => fetchOpening .flowSequenceStart
  | '\x7b' => fetchOpening .flowMappingStart
  | ']' => fetchClosing .flowSequenceEnd
  | '\x7d' => fetchClosing .flowMappingEnd
  | ',' => fetchComma
  | '*' => fetchWord fun cursor => (readAnchor cursor).map (Prod.map id .reference)
  | '&' => fetchWord fun cursor => (readAnchor cursor).map (Prod.map id .anchor)
  | '!' => fetchWord fun cursor => (readTag cursor).map (Prod.map id .tag)
  | '\x27' => fetchWord (quotedToken '\x27')
  | '\x22' => fetchWord (quotedToken '\x22')
  | _ =>
      if c = '-' && endsWord next then fetchDash
      else if c = '?' && (stream.inFlow || endsWord next) then fetchQuestion
      else if c = ':' && (stream.inFlow || endsWord next) then fetchColon
      else if (c = '|' || c = '>') && !stream.inFlow then fetchBlock (c = '>')
      else if startsPlain stream.inFlow c next then fetchPlain
      else throw (.atCursor stream.cursor .strayCharacter)

/-- Read one token. A comment on the line of a token belongs to it, unless it is a dash. -/
def fetch : Tokenizing Unit := do
  if !(← get).started then
    fetchStart
  else
    approach
    let cursor := (← get).cursor
    match cursor.here with
    | none => fetchEnd
    | some c =>
        if cursor.column = 0 && c = '%' then fetchDirective
        else if cursor.atRule '-' then fetchRule .documentStart
        else if cursor.atRule '.' then fetchRule .documentEnd
        else
          fetchInside c
          modify fun stream =>
            if (stream.waiting.getLast?.map (·.kind)) = some .blockEntry then stream
            else { stream with cursor := skipLineComment stream.cursor }

/-- Whether the first token that waits can be used: two more follow it, and it is no candidate that
may still become a key. -/
def settled : Tokenizing Bool := do
  let stream ← get
  if stream.waiting.length ≤ 2 then
    return false
  else
    match stream.candidateLevels.lookup stream.taken with
    | none => return true
    | some level => return !(← checkCandidate level)

/-- Read tokens until the first one that waits is settled. -/
def fetchMore : Nat → Tokenizing Unit
  | 0 => pure ()
  | fuel + 1 => do
      if !(← settled) then
        fetch
        fetchMore fuel

/-- The next token, which stays. -/
def peek : Tokenizing Token := do
  let stream ← get
  if !stream.ready then
    fetchMore (stream.cursor.rest.length + 4)
    modify fun stream => { stream with ready := true }
  return ((← get).waiting.head?).getD ⟨.streamEnd, 0⟩

/-- Take the next token away. -/
def advance : Tokenizing Unit :=
  modify fun stream =>
    { stream with waiting := stream.waiting.drop 1, taken := stream.taken + 1, ready := false }

end TokenStream

end CircuitNetwork.Yaml
