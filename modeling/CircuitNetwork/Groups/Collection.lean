import CircuitNetwork.Wire.Board

namespace CircuitNetwork

/-!
# Groups of one signal

A group is a set of networks and endpoints that interact through one signal. A
collection holds the groups of a signal as a forest: merging two groups makes
the root of one a child of the other's, by rank, and looking a group up shortens
the path to its root. An identity stays valid when its group is merged into
another one.
-/

/-- Networks and endpoints that interact through one signal, in the order in which they joined. -/
structure Group where
  id : Nat
  points : List (Option Endpoint) := []
  networks : List Nat := []
  deriving Repr, DecidableEq, Inhabited

namespace Group

/-- Add an endpoint. -/
def addPoint (group : Group) (point : Option Endpoint) : Group :=
  if group.points.contains point then group
  else { group with points := group.points ++ [point] }

/-- Add a network. -/
def addNetwork (group : Group) (network : Nat) : Group :=
  if group.networks.contains network then group
  else { group with networks := group.networks ++ [network] }

/-- Add the members of another group. -/
def absorb (group other : Group) : Group :=
  other.networks.foldl addNetwork (other.points.foldl addPoint group)

end Group

/-- One identity in a collection. The group and the mark of a renamed group count only at a root. -/
structure Slot where
  parent : Nat
  rank : Nat := 0
  group : Group
  renamed : Bool := false
  deriving Repr, DecidableEq, Inhabited

/-- The groups of one signal. -/
structure Collection where
  signal : Signal
  slots : Array Slot := #[]
  owners : List (Nat × Nat) := []
  deriving Repr, DecidableEq, Inhabited

namespace Collection

/-- The identity that a number stands for, if it was ever created. -/
def id? (collection : Collection) (number : Int) : Option Nat :=
  if 0 ≤ number ∧ number < collection.slots.size then some number.toNat else none

/-- Change a slot. -/
def modifySlot (collection : Collection) (id : Nat) (change : Slot → Slot) : Collection :=
  { collection with slots := collection.slots.modify id change }

/-- The parent of an identity. -/
def parent (collection : Collection) (id : Nat) : Nat :=
  (collection.slots[id]?.map (·.parent)).getD id

/-- The rank of an identity. -/
def rank (collection : Collection) (id : Nat) : Nat :=
  (collection.slots[id]?.map (·.rank)).getD 0

/-- The group at a slot. -/
def groupAt (collection : Collection) (id : Nat) : Group :=
  (collection.slots[id]?.map (·.group)).getD { id := id }

/-- Whether the group at a slot was renamed. -/
def isRenamed (collection : Collection) (id : Nat) : Bool :=
  (collection.slots[id]?.map (·.renamed)).getD false

/-- Create an empty group. -/
def newGroup (collection : Collection) : Nat × Collection :=
  let id := collection.slots.size
  (id, { collection with slots := collection.slots.push { parent := id, group := { id := id } } })

/-- Walk to the root, making every second identity on the way a child of its grandparent. -/
def findFrom : Nat → Nat → Collection → Nat × Collection
  | 0, id, collection => (id, collection)
  | steps + 1, id, collection =>
      if collection.parent id = id then
        (id, collection)
      else
        let grandparent := collection.parent (collection.parent id)
        findFrom steps grandparent (collection.modifySlot id ({ · with parent := grandparent }))

/-- The identity of the group that an identity was merged into. No path is longer than the number of
identities. -/
def find (collection : Collection) (id : Nat) : Nat × Collection :=
  findFrom collection.slots.size id collection

/-- The group of an identity. -/
def group (collection : Collection) (id : Nat) : Group × Collection :=
  let (root, collection) := collection.find id
  (collection.groupAt root, collection)

/-- The group that a network belongs to. -/
def lookup (collection : Collection) (network : Option Nat) : Option Nat × Collection :=
  match network.bind (collection.owners.lookup ·) with
  | none => (none, collection)
  | some id =>
      let (root, collection) := collection.find id
      (some root, collection)

/-- Make one root the child of another, which takes its members over. -/
def link (collection : Collection) (root child : Nat) : Collection :=
  let members := collection.groupAt child
  let raised := if collection.rank root = collection.rank child then 1 else 0
  let collection := collection.modifySlot root fun slot =>
    { slot with rank := slot.rank + raised, group := slot.group.absorb members }
  collection.modifySlot child fun slot =>
    { slot with parent := root, group := { id := child } }

/-- Merge two groups. The root of higher rank stays, and the smaller of two equal rank. -/
def merge (collection : Collection) (a b : Nat) : Nat × Collection :=
  let (a, collection) := collection.find a
  let (b, collection) := collection.find b
  if a = b then
    (a, collection)
  else if collection.rank a < collection.rank b ∨
      (collection.rank a = collection.rank b ∧ b < a) then
    (b, collection.link b a)
  else
    (a, collection.link a b)

/-- Add a network to a group. If it belongs to another group, the two are merged. -/
def addNetwork (collection : Collection) (id : Nat) (network : Option Nat) : Nat × Collection :=
  match network with
  | none => collection.find id
  | some added =>
      match collection.lookup network with
      | (some current, collection) => collection.merge current id
      | (none, collection) =>
          let (root, collection) := collection.find id
          let collection := collection.modifySlot root fun slot =>
            { slot with group := slot.group.addNetwork added }
          (root, { collection with owners := (added, root) :: collection.owners })

/-- Add an endpoint to a group. -/
def addPoint (collection : Collection) (id : Nat) (point : Option Endpoint) : Collection :=
  let (root, collection) := collection.find id
  collection.modifySlot root fun slot => { slot with group := slot.group.addPoint point }

/-- The current groups: those at a root that were not renamed. -/
def groups (collection : Collection) : List Group :=
  collection.slots.toList.zipIdx.filterMap fun (slot, id) =>
    if slot.parent = id ∧ !slot.renamed then some slot.group else none

/-- The group at the networks of an endpoint. If they belong to two groups, these are merged. -/
def pointGroup
    (collection : Collection)
    (board : Board)
    (point : Endpoint) :
    Option Nat × Collection :=
  let (red, collection) := collection.lookup (board.network? .red point)
  let (green, collection) := collection.lookup (board.network? .green point)
  match red, green with
  | some red, some green =>
      let (root, collection) := collection.merge red green
      (some root, collection)
  | some red, none => (some red, collection)
  | none, some green => (some green, collection)
  | none, none => (none, collection)

/-- Add the networks of an endpoint to a group. -/
def addNetworks
    (collection : Collection)
    (board : Board)
    (id : Nat)
    (point : Endpoint) :
    Nat × Collection :=
  Color.all.foldl
    (fun (id, collection) color => collection.addNetwork id (board.network? color point))
    (id, collection)

/-- The group at the networks of an endpoint, or a new group of these networks. -/
def ensurePointGroup
    (collection : Collection)
    (board : Board)
    (point : Endpoint) :
    Nat × Collection :=
  match collection.pointGroup board point with
  | (some root, collection) => (root, collection)
  | (none, collection) =>
      let (id, collection) := collection.newGroup
      collection.addNetworks board id point

end Collection

/-- All signals put out by the endpoints on a group's networks, with the output signals of
combinators that pass values through. -/
def Group.networkSignals (group : Group) (board : Board) : SignalSet :=
  (group.networks.flatMap board.points).foldl
    (fun signals point =>
      let body := (board.entity point.entity).body
      let signals := signals.union (board.signals point)
      if body.passThrough then signals.addAll body.outputs else signals)
    SignalMap.empty

end CircuitNetwork
