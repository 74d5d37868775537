import CircuitNetwork.Text.Quoted
import CircuitNetwork.Yaml.Node

namespace CircuitNetwork.Yaml

/-!
# Refusals

A document that can be read may still not fit what is wanted. All that does not
fit is collected, in order.
-/

/-- Something in a document that does not fit. -/
inductive Refusal where
  | unknownField (line : Nat) (field record : String)
  | repeatedField (line : Nat) (field record : String)
  | repeatedKey (line : Nat) (key : String) (first : Nat)
  | mismatch (line : Nat) (tag text target : String)
  deriving Repr, DecidableEq, Inhabited

namespace Refusal

/-- The first bytes of a text. A character that is cut leaves a replacement character for each of
its bytes. -/
def cutBytes : Nat → List Char → List Char
  | _, [] => []
  | room, c :: rest =>
      if c.utf8Size ≤ room then c :: cutBytes (room - c.utf8Size) rest
      else List.replicate room '�'

/-- A scalar in a message, cut if it is long. -/
def excerpt (scalar : String) : String :=
  if 10 < scalar.utf8ByteSize then
    String.ofList (cutBytes 7 scalar.toList) ++ "..."
  else
    scalar

/-- The wording of a refusal. The text of a node is shown unless it has the tag of a collection. -/
def text : Refusal → String
  | unknownField line field record =>
      "line " ++ toString line ++ ": field " ++ field ++ " not found in type " ++ record
  | repeatedField line field record =>
      "line " ++ toString line ++ ": field " ++ field ++ " already set in type " ++ record
  | repeatedKey line key first =>
      "line " ++ toString line ++ ": mapping key " ++ Text.quote key ++
        " already defined at line " ++ toString first
  | mismatch line tag text target =>
      let shown :=
        if tag = "!!seq" || tag = "!!map" then text else " \x60" ++ excerpt text ++ "\x60"
      "line " ++ toString line ++ ": cannot unmarshal " ++ tag ++ shown ++ " into " ++ target

/-- A node does not fit a target. -/
def ofNode (target : String) : Node → Refusal
  | .scalar line tag text => mismatch line tag text target
  | .sequence line tag _ => mismatch line tag "" target
  | .mapping line tag _ => mismatch line tag "" target
  | .reference line name .. => mismatch line "" name target

/-- All pairs of entries with the same key, in order. -/
def repeatedKeys : List (Node × Node) → List Refusal
  | [] => []
  | (key, _) :: rest =>
      (rest.filterMap fun (other, _) =>
        if key.sameKey other then some (.repeatedKey other.line other.text key.line) else none) ++
      repeatedKeys rest

end Refusal

/-- What a node gives: nothing if it is null, a value, or what does not fit. -/
inductive Taken (α : Type) where
  | nothing
  | value (value : α)
  | refused (refusals : List Refusal)
  deriving Repr, DecidableEq, Inhabited

/-- The value of a scalar. A mapping with repeated keys is refused for these alone. -/
def Node.take
    {α : Type}
    (node : Node)
    (target : String)
    (convert : Meaning → String → Option α) :
    Except Malformed (Taken α) :=
  match node.target with
  | .scalar line tag text => do
      let meaning ← Meaning.ofTagged tag text
      if meaning = .null then
        return .nothing
      else
        match convert meaning text with
        | some value => return .value value
        | none => return .refused [.mismatch line tag text target]
  | .mapping line tag entries =>
      match Refusal.repeatedKeys entries with
      | [] => .ok (.refused [.mismatch line tag "" target])
      | repeated => .ok (.refused repeated)
  | node => .ok (.refused [.ofNode target node])

/-- The text of a scalar, which is taken as it is written unless it encodes bytes. -/
def Node.takeText (node : Node) : Except Malformed (Taken String) :=
  node.take "string" fun meaning text =>
    match meaning with
    | .text _ content => some content
    | _ => some text

end CircuitNetwork.Yaml
