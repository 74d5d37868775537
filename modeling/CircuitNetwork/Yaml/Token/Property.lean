import CircuitNetwork.Yaml.Token
import CircuitNetwork.Yaml.Token.Scalar

namespace CircuitNetwork.Yaml

/-!
# Anchors, tags and directives

An anchor names a node and an alias repeats it. A tag says what a node means. A
directive in front of a document gives its version or defines a tag handle.
-/

/-- Whether a character may stand in a name. -/
def isNameChar (c : Char) : Bool := c.isAlphanum || c = '_' || c = '-'

/-- Whether a character may stand in a tag. -/
def isUriChar (c : Char) : Bool :=
  isNameChar c || ";/?:@&=+$.,!~*'()[]%".toList.contains c

/-- Read the name of an anchor or an alias behind its sign. -/
def readAnchor (cursor : Cursor) : Except Malformed (Cursor × String) :=
  let (name, rest) := cursor.skip.span isNameChar
  let ended := endsWord rest.here || rest.here.any ("?:,]\x7d%@\x60".toList.contains ·)
  if name.isEmpty || !ended then .error (.inText cursor.mark rest .unnamedAnchor)
  else .ok (rest, String.ofList name)

/-- The byte of a percent sign with two hexadecimal digits. -/
def readOctet (start : Mark) (cursor : Cursor) : Except Malformed (Cursor × Nat) :=
  match cursor.here, (cursor.ahead 1).bind hexDigit?, (cursor.ahead 2).bind hexDigit? with
  | some '%', some high, some low => .ok (cursor.skipMany 3, 16 * high + low)
  | _, _, _ => .error (.inText start cursor .badUriEscape)

/-- The further bytes of a character. -/
def readOctets (start : Mark) : Nat → Cursor → Nat → Except Malformed (Cursor × Nat)
  | 0, cursor, code => .ok (cursor, code)
  | count + 1, cursor, code => do
      let (next, octet) ← readOctet start cursor
      if octet / 64 = 2 then readOctets start count next (64 * code + octet % 64)
      else .error (.inText start cursor .badUriRest)

/-- Read a character that is written as its bytes. -/
def readUriEscape (start : Mark) (cursor : Cursor) : Except Malformed (Cursor × Char) := do
  let (next, first) ← readOctet start cursor
  let (further, bits) ←
    if first < 0x80 then pure (0, first)
    else if first / 32 = 6 then pure (1, first % 32)
    else if first / 16 = 14 then pure (2, first % 16)
    else if first / 8 = 30 then pure (3, first % 8)
    else throw (.inText start cursor .badUriStart)
  let (next, code) ← readOctets start further next bits
  return (next, Char.ofNat code)

/-- Read the characters of a tag, in reverse. -/
def readUri (start : Mark) : Nat → Cursor → List Char → Except Malformed (Cursor × List Char)
  | 0, cursor, uri => .ok (cursor, uri)
  | fuel + 1, cursor, uri =>
      match cursor.here with
      | some '%' => do
          let (cursor, c) ← readUriEscape start cursor
          readUri start fuel cursor (c :: uri)
      | some c =>
          if isUriChar c then readUri start fuel cursor.skip (c :: uri) else .ok (cursor, uri)
      | none => .ok (cursor, uri)

/-- Read the text of a tag, which is not empty unless something came before it. -/
def readTagText
    (start : Mark)
    (before : List Char)
    (cursor : Cursor) :
    Except Malformed (Cursor × String) := do
  let (next, uri) ← readUri start cursor.rest.length cursor []
  if before.isEmpty && uri.isEmpty then
    throw (.inText start next .missingUri)
  else
    return (next, String.ofList (before.drop 1 ++ uri.reverse))

/-- Read a tag handle: an exclamation mark, and a name with another one if there is one. -/
def readHandle
    (start : Mark)
    (inDirective : Bool)
    (cursor : Cursor) :
    Except Malformed (Cursor × List Char) :=
  if cursor.here ≠ some '!' then
    .error (.inText start cursor .unendedHandle)
  else
    let (name, rest) := cursor.skip.span isNameChar
    if rest.here = some '!' then
      .ok (rest.skip, '!' :: name ++ ['!'])
    else if inDirective && !name.isEmpty then
      .error (.inText start rest .unendedHandle)
    else
      .ok (rest, '!' :: name)

/-- Read the name of a tag, without a check of what follows. -/
def readTagName (cursor : Cursor) : Except Malformed (Cursor × TagName) := do
  let start := cursor.mark
  if cursor.ahead 1 = some '<' then
    let (cursor, suffix) ← readTagText start [] (cursor.skipMany 2)
    if cursor.here = some '>' then return (cursor.skip, ⟨"", suffix⟩)
    else throw (.inText start cursor .unendedVerbatim)
  else
    let (cursor, handle) ← readHandle start false cursor
    if 1 < handle.length && handle.getLast? = some '!' then
      let (cursor, suffix) ← readTagText start [] cursor
      return (cursor, ⟨String.ofList handle, suffix⟩)
    else
      let (cursor, suffix) ← readTagText start handle cursor
      return (cursor, if suffix = "" then ⟨"", "!"⟩ else ⟨"!", suffix⟩)

/-- Read a tag. -/
def readTag (cursor : Cursor) : Except Malformed (Cursor × TagName) := do
  let (next, name) ← readTagName cursor
  if endsWord next.here then return (next, name)
  else throw (.inText cursor.mark next .unendedTag)

/-- Read one of the two numbers of a version. -/
def readVersionNumber (start : Mark) (cursor : Cursor) : Except Malformed (Cursor × Nat) :=
  let (digits, next) := cursor.span Char.isDigit
  if 2 < digits.length then .error (.inText start (cursor.skipMany 2) .longVersion)
  else if digits.isEmpty then .error (.inText start cursor .missingVersion)
  else .ok (next, digits.foldl (fun value c => 10 * value + (c.toNat - 0x30)) 0)

/-- Read the version in a directive. -/
def readVersion (start : Mark) (cursor : Cursor) : Except Malformed (Cursor × Token.Kind) := do
  let (cursor, major) ← readVersionNumber start cursor.skipBlanks
  if cursor.here = some '.' then
    let (cursor, minor) ← readVersionNumber start cursor.skip
    return (cursor, .versionDirective major minor)
  else
    throw (.inText start cursor .badVersion)

/-- Read the definition of a tag handle in a directive. -/
def readHandleDefinition
    (start : Mark)
    (cursor : Cursor) :
    Except Malformed (Cursor × Token.Kind) := do
  let (cursor, handle) ← readHandle start true cursor.skipBlanks
  if cursor.here.any isBlank then
    let (cursor, lead) ← readTagText start [] cursor.skipBlanks
    if endsWord cursor.here then return (cursor, .tagDirective (String.ofList handle) lead)
    else throw (.inText start cursor .unendedTag)
  else
    throw (.inText start cursor .missingBlank)

/-- Read a directive with its line. -/
def readDirective (cursor : Cursor) : Except Malformed (Cursor × Token.Kind) := do
  let start := cursor.mark
  let (name, cursor) := cursor.skip.span isNameChar
  if name.isEmpty then
    throw (.inText start cursor .unnamedDirective)
  else if !endsWord cursor.here then
    throw (.inText start cursor .strayInDirective)
  else
    let (cursor, kind) ←
      if name = "YAML".toList then readVersion start cursor
      else if name = "TAG".toList then readHandleDefinition start cursor
      else throw (.inText start cursor .unknownDirective)
    return (← finishLine start .textAfterDirective cursor, kind)

end CircuitNetwork.Yaml
