import CircuitNetwork.Yaml.Refusal

namespace CircuitNetwork.Yaml

/-!
# Fields of mappings

A mapping gives the fields of a record. A merge key stands for the entries of
other mappings, as far as the mapping itself does not have them; of two other
mappings the first one counts.
-/

/-- A field that a mapping gives, and whether it has given it before, or a key that is no name. -/
inductive Field where
  | value (line : Nat) (name : String) (node : Node) (again : Bool)
  | refused (refusals : List Refusal)
  deriving Repr, Inhabited

/-- Whether a node is the merge key. -/
def Node.isMerge : Node → Bool
  | .scalar _ tag text => text = "<<" && tag = Meaning.mergeTag
  | _ => false

/-- The text that a key is compared by when mappings are merged. Only texts are. -/
def Node.mergeName? (key : Node) : Option String :=
  match key.target with
  | .scalar _ tag text =>
      match Meaning.ofTagged tag text with
      | .ok (.text _ content) => some content
      | _ => none
  | _ => none

/-- The fields that are collected from mappings, and the names that count as given, if any do. -/
structure FieldList where
  fields : List Field := []
  given : Option (List String) := none
  deriving Repr, Inhabited

namespace FieldList

/-- Add a field under a name, unless the name counts as given. -/
def add (list : FieldList) (line : Nat) (name : String) (node : Node) (again : Bool) : FieldList :=
  if list.given.any (·.contains name) then list
  else {
    fields := list.fields ++ [.value line name node again]
    given := list.given.map (name :: ·) }

/-- Add the entries of a mapping that are no merge keys, given the names that it had before. A key
that is null is passed over. -/
def addOwn
    (list : FieldList)
    (names : List String) :
    List (Node × Node) → Except Malformed FieldList
  | [] => .ok list
  | (key, node) :: rest =>
      if key.isMerge then
        list.addOwn names rest
      else do
        match ← key.takeText with
        | .nothing => list.addOwn names rest
        | .refused refusals =>
            addOwn { list with fields := list.fields ++ [.refused refusals] } names rest
        | .value name =>
            (list.add key.line name node (names.contains name)).addOwn (name :: names) rest

/-- Check a node that is merged: a mapping, or an alias of one. -/
def checkMerged (node : Node) : Except Malformed Unit :=
  match node.target with
  | .mapping .. => .ok ()
  | _ => .error (.overall .badMerge)

/-- The nodes that a merge key stands for. -/
def mergedNodes (node : Node) : List Node :=
  match node with
  | .sequence _ _ items => items
  | node => [node]

/-- The greatest depth of merges inside of merges. -/
def maxMerges : Nat := 10000

/-- Add the entries of a mapping and of those that it merges. One with repeated keys adds none. -/
def addMapping : Nat → FieldList → Node → Except Malformed FieldList
  | 0, _, _ => .error (.overall .tooDeep)
  | _ + 1, _, .reference _ name true _ => .error (.overall (.recursiveAnchor name))
  | fuel + 1, list, node =>
      match node.target with
      | .mapping _ _ entries =>
          match Refusal.repeatedKeys entries with
          | [] => do
              let own ← list.addOwn [] entries
              match (entries.filter (·.1.isMerge)).getLast? with
              | none => return own
              | some (_, merged) =>
                  let names := own.given.getD (entries.filterMap (·.1.mergeName?))
                  let all ← (mergedNodes merged).foldlM
                    (fun list node => do
                      checkMerged node
                      addMapping fuel list node)
                    { own with given := some names }
                  return { all with given := if own.given.isSome then all.given else none }
          | repeated => .ok { list with fields := list.fields ++ [.refused repeated] }
      | _ => .ok list

end FieldList

/-- The fields that a mapping gives. -/
def Node.fields (node : Node) : Except Malformed (List Field) := do
  return (← FieldList.addMapping FieldList.maxMerges {} node).fields

end CircuitNetwork.Yaml
