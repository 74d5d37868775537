import CircuitNetwork.Groups.Collection

namespace CircuitNetwork

/-!
# Extracting signal groups

For every signal, the networks and endpoints that interact through it. First the
networks at an output are grouped for every signal put out there. Then each
combinator merges the groups at its input for every signal that it reads, and a
combinator that passes values through merges its input and output groups. A
wildcard operand merges the groups at the input for every signal.
-/

/-- The groups of every signal. -/
abbrev SignalGroups := SignalMap Collection

namespace SignalGroups

/-- The collection of a signal, empty if there is none yet. -/
def collection (groups : SignalGroups) (signal : Signal) : Collection :=
  (groups.find? signal).getD { signal := signal }

/-- An entity that is no combinator has no signals to group. -/
def notCombinator (entity : Entity) : Fault :=
  ⟨.invariantViolation, entity.body.name,
    "entity is not a constant, decider or arithmetic combinator"⟩

/-- Group the networks at an output for one signal. -/
def addOutput
    (board : Board)
    (point : Endpoint)
    (groups : SignalGroups)
    (signal : Signal) :
    SignalGroups :=
  let (id, collection) := (groups.collection signal).ensurePointGroup board point
  let (id, collection) := collection.addNetworks board id point
  groups.insert signal (collection.addPoint id (some point))

/-- Group the networks at the output of an entity. -/
def addOutputs (board : Board) (groups : SignalGroups) (entity : Nat) : SignalGroups :=
  (board.entity entity).body.outputs.foldl (addOutput board (board.output entity)) groups

/-- Group the networks at an input for one signal that is read there. -/
def addReader
    (board : Board)
    (point : Endpoint)
    (groups : SignalGroups)
    (signal : Signal) :
    SignalGroups :=
  let (id, collection) := (groups.collection signal).ensurePointGroup board point
  groups.insert signal (collection.addPoint id (some point))

/-- Merge the groups at an input for one signal. -/
def mergeAt
    (board : Board)
    (point : Endpoint)
    (groups : SignalGroups)
    (signal : Signal) :
    SignalGroups :=
  groups.insert signal ((groups.collection signal).pointGroup board point).2

/-- Merge the groups at the input and at the output of an entity that passes a signal through. -/
def mergeThrough
    (board : Board)
    (entity : Nat)
    (groups : SignalGroups)
    (signal : Signal) :
    SignalGroups :=
  match (groups.collection signal).pointGroup board (board.input entity) with
  | (none, collection) => groups.insert signal collection
  | (some entry, collection) =>
      match collection.pointGroup board (board.output entity) with
      | (none, collection) => groups.insert signal collection
      | (some exit, collection) => groups.insert signal (collection.merge entry exit).2

/-- Group what an entity reads. -/
def addReaders (board : Board) (groups : SignalGroups) (entity : Nat) : SignalGroups :=
  let body := (board.entity entity).body
  let point := board.input entity
  if body.operands.any (·.isWildcard) then
    groups.keys.foldl (mergeAt board point) groups
  else
    let groups := body.operands.foldl (addReader board point) groups
    if body.passThrough then
      body.outputs.foldl (mergeThrough board entity) groups
    else
      groups

/-- The signal groups of a list of combinators. -/
def extract (board : Board) (entities : List Nat) : Except Failure SignalGroups :=
  match entities.find? fun id => !(board.entity id).body.isCombinator with
  | some id => .error (.ofFault (notCombinator (board.entity id)))
  | none =>
      .ok (entities.foldl (addReaders board)
        (entities.foldl (addOutputs board) SignalMap.empty))

end SignalGroups

end CircuitNetwork
