namespace CircuitNetwork.Yaml

/-!
# Tokens

The words of a document. Block collections have no brackets of their own, so
tokens for their starts and ends follow from the indentation.
-/

/-- The shape of a tag: a handle, which a directive may define, and the rest. A tag that is written
out has no handle. -/
structure TagName where
  handle : String
  suffix : String
  deriving Repr, DecidableEq, Inhabited

/-- The kinds of tokens. A scalar is plain or not. -/
inductive Token.Kind where
  | streamStart
  | streamEnd
  | versionDirective (major minor : Nat)
  | tagDirective (handle lead : String)
  | documentStart
  | documentEnd
  | blockSequenceStart
  | blockMappingStart
  | blockEnd
  | flowSequenceStart
  | flowSequenceEnd
  | flowMappingStart
  | flowMappingEnd
  | blockEntry
  | flowEntry
  | key
  | value
  | reference (name : String)
  | anchor (name : String)
  | tag (name : TagName)
  | scalar (text : String) (plain : Bool)
  deriving Repr, DecidableEq, Inhabited

/-- A token and the line that it starts on, counted from zero. -/
structure Token where
  kind : Token.Kind
  line : Nat
  deriving Repr, DecidableEq, Inhabited

end CircuitNetwork.Yaml
