import CircuitNetwork.Yaml.Place

namespace CircuitNetwork.Yaml

/-!
# Malformed documents

A document that cannot be read is reported with the first problem in it and the
line where the construct in question starts or, if that is the first line, where
the problem shows.
-/

/-- The problems of a document that cannot be read. -/
inductive Problem where
  | controlCharacter
  | tooDeep
  | missingColon
  | entryNotAllowed
  | keyNotAllowed
  | valueNotAllowed
  | strayCharacter
  | tabInIndentation
  | tabInBlock
  | zeroIndentation
  | textAfterIndicator
  | ruleInQuotes
  | endInQuotes
  | unknownEscape
  | badHexadecimal
  | badCharacterCode
  | unnamedAnchor
  | unendedTag
  | unendedHandle
  | unendedVerbatim
  | missingUri
  | badUriEscape
  | badUriStart
  | badUriRest
  | undefinedHandle
  | unknownDirective
  | unnamedDirective
  | strayInDirective
  | textAfterDirective
  | missingVersion
  | longVersion
  | badVersion
  | wrongVersion
  | repeatedVersion
  | repeatedHandle
  | missingBlank
  | missingDocument
  | missingContent
  | missingDash
  | missingKey
  | openSequence
  | openMapping
  | unknownAnchor (name : String)
  | recursiveAnchor (name : String)
  | badTagged (tag text wanted : String)
  | badBinary
  | badMerge
  deriving Repr, DecidableEq, Inhabited

/-- The wording of a problem. -/
def Problem.text : Problem → String
  | controlCharacter => "control characters are not allowed"
  | tooDeep => "exceeded max depth of 10000"
  | missingColon => "could not find expected ':'"
  | entryNotAllowed => "block sequence entries are not allowed in this context"
  | keyNotAllowed => "mapping keys are not allowed in this context"
  | valueNotAllowed => "mapping values are not allowed in this context"
  | strayCharacter => "found character that cannot start any token"
  | tabInIndentation => "found a tab character that violates indentation"
  | tabInBlock => "found a tab character where an indentation space is expected"
  | zeroIndentation => "found an indentation indicator equal to 0"
  | textAfterIndicator => "did not find expected comment or line break"
  | ruleInQuotes => "found unexpected document indicator"
  | endInQuotes => "found unexpected end of stream"
  | unknownEscape => "found unknown escape character"
  | badHexadecimal => "did not find expected hexdecimal number"
  | badCharacterCode => "found invalid Unicode character escape code"
  | unnamedAnchor => "did not find expected alphabetic or numeric character"
  | unendedTag => "did not find expected whitespace or line break"
  | unendedHandle => "did not find expected '!'"
  | unendedVerbatim => "did not find the expected '>'"
  | missingUri => "did not find expected tag URI"
  | badUriEscape => "did not find URI escaped octet"
  | badUriStart => "found an incorrect leading UTF-8 octet"
  | badUriRest => "found an incorrect trailing UTF-8 octet"
  | undefinedHandle => "found undefined tag handle"
  | unknownDirective => "found unknown directive name"
  | unnamedDirective => "could not find expected directive name"
  | strayInDirective => "found unexpected non-alphabetical character"
  | textAfterDirective => "did not find expected comment or line break"
  | missingVersion => "did not find expected version number"
  | longVersion => "found extremely long version number"
  | badVersion => "did not find expected digit or '.' character"
  | wrongVersion => "found incompatible YAML document"
  | repeatedVersion => "found duplicate %YAML directive"
  | repeatedHandle => "found duplicate %TAG directive"
  | missingBlank => "did not find expected whitespace"
  | missingDocument => "did not find expected <document start>"
  | missingContent => "did not find expected node content"
  | missingDash => "did not find expected '-' indicator"
  | missingKey => "did not find expected key"
  | openSequence => "did not find expected ',' or ']'"
  | openMapping => "did not find expected ',' or '\x7d'"
  | unknownAnchor name => "unknown anchor '" ++ name ++ "' referenced"
  | recursiveAnchor name => "anchor '" ++ name ++ "' value contains itself"
  | badTagged tag text wanted =>
      "cannot decode " ++ tag ++ " \x60" ++ text ++ "\x60 as a " ++ wanted
  | badBinary => "!!binary value contains invalid base64 data"
  | badMerge => "map merge requires map or sequence of maps as the value"

/-- A report of a problem, with the number of a line unless that is zero. -/
structure Malformed where
  line : Nat
  problem : Problem
  deriving Repr, DecidableEq, Inhabited

namespace Malformed

/-- The wording of a report. -/
def text (report : Malformed) : String :=
  if report.line = 0 then report.problem.text
  else "line " ++ toString report.line ++ ": " ++ report.problem.text

/-- A problem of a document as a whole. -/
def overall (problem : Problem) : Malformed := ⟨0, problem⟩

/-- The line to report, counted from zero: where a construct starts, or where the problem shows. -/
def chooseLine (start place : Nat) : Nat := if start = 0 then place else start

/-- A problem with characters, in a construct that starts at a mark. The first line goes without a
number and the others are counted from one. -/
def inText (start : Mark) (cursor : Cursor) (problem : Problem) : Malformed :=
  let line := chooseLine start.line cursor.line
  ⟨if line = 0 then 0 else line + 1, problem⟩

/-- A problem with characters here. -/
def atCursor (cursor : Cursor) (problem : Problem) : Malformed :=
  inText cursor.mark cursor problem

/-- A problem with the order of tokens, in a construct that starts on a line. The number is that of
the line before. -/
def inOrder (start place : Nat) (problem : Problem) : Malformed :=
  ⟨chooseLine start place, problem⟩

end Malformed

end CircuitNetwork.Yaml
