import CircuitNetwork.Yaml.Meaning

namespace CircuitNetwork.Yaml

/-!
# YAML nodes

A document is a tree of scalars, sequences and mappings, each with the line that
it starts on and its tag. An alias stands for a node that has a name. If it is
inside of that node, which is then still open, all that is known of the node is
its kind.
-/

/-- A node of a document. -/
inductive Node where
  | scalar (line : Nat) (tag text : String)
  | sequence (line : Nat) (tag : String) (items : List Node)
  | mapping (line : Nat) (tag : String) (entries : List (Node × Node))
  | reference (line : Nat) (name : String) (isOpen : Bool) (target : Node)
  deriving Repr, Inhabited

namespace Node

/-- The line on which a node starts. -/
def line : Node → Nat
  | scalar line .. => line
  | sequence line .. => line
  | mapping line .. => line
  | reference line .. => line

/-- The text of a scalar or an alias; other nodes have none. -/
def text : Node → String
  | scalar _ _ text => text
  | sequence .. => ""
  | mapping .. => ""
  | reference _ name .. => name

/-- Whether two nodes are of one kind and have the same text. -/
def sameKey : Node → Node → Bool
  | scalar _ _ a, scalar _ _ b => a = b
  | sequence .., sequence .. => true
  | mapping .., mapping .. => true
  | reference _ a .., reference _ b .. => a = b
  | _, _ => false

/-- The node that an alias stands for; other nodes stand for themselves. -/
def target : Node → Node
  | reference _ _ _ node => node
  | node => node

/-- The short form of a tag. -/
def shortTag (tag : String) : String :=
  let lead := "tag:yaml.org,2002:"
  if tag.startsWith lead then "!!" ++ (tag.drop lead.length).toString else tag

/-- The tag of a node, if it has one of its own. -/
def ownTag? (tag : String) : Option String :=
  if tag = "" || tag = "!" then none else some (shortTag tag)

/-- A scalar with a tag, which may be empty. -/
def ofScalar (line : Nat) (tag text : String) (plain : Bool) : Node :=
  let untagged := if plain then (Meaning.ofPlain text).tag else Meaning.textTag
  scalar line ((ownTag? tag).getD untagged) text

/-- The node of a value that is left out. -/
def absent (line : Nat) : Node := ofScalar line "" "" true

/-- A sequence with a tag, which may be empty. -/
def ofItems (line : Nat) (tag : String) (items : List Node) : Node :=
  sequence line ((ownTag? tag).getD "!!seq") items

/-- A mapping with a tag, which may be empty. -/
def ofEntries (line : Nat) (tag : String) (entries : List (Node × Node)) : Node :=
  mapping line ((ownTag? tag).getD "!!map") entries

end Node

end CircuitNetwork.Yaml
