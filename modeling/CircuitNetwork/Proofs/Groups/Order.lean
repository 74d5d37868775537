import CircuitNetwork.Proofs.Groups.Components
import CircuitNetwork.Proofs.Groups.Consistent
import Mathlib.Data.Finset.Dedup

namespace CircuitNetwork

/-!
# Groups and the order of combinators

The combinators are grouped one after another. Their order makes a difference
only where a combinator reads a signal that is put onto none of its networks: it
makes a group of them, which those after it find and those before it do not. If
no other combinator uses these networks in another way, the groups are the same
in every order.
-/

namespace Board

variable {board : Board} {entities : List Nat} {signal : Signal}

/-- A combinator reads a signal that is put onto none of its networks. -/
structure Starved (board : Board) (entities : List Nat) (signal : Signal) (entity : Nat) : Prop where
  notWild : ¬board.Wild entity
  reads : signal ∈ (board.entity entity).body.operands
  unproduced : ∀ network, board.Attached (board.input entity) network →
    ¬board.Produced entities signal network

/-- Where a signal is read that is put onto none of the networks, all combinators that receive it
from one of these networks read it, or have a wildcard operand, and are on all of these networks and
no others. -/
def Unambiguous (board : Board) (entities : List Nat) (signal : Signal) : Prop :=
  ∀ reader ∈ entities, board.Starved entities signal reader →
    ∀ other ∈ entities, board.Receives other signal →
      ∀ shared, board.Attached (board.input reader) shared →
        board.Attached (board.input other) shared →
          (signal ∈ (board.entity other).body.operands ∨ board.Wild other) ∧
            ∀ network, board.Attached (board.input other) network ↔
              board.Attached (board.input reader) network

/-- A network that is grouped: a signal is put onto it, or is read from it and put onto none of the
networks of the reader. -/
def Known (board : Board) (entities : List Nat) (signal : Signal) (network : Nat) : Prop :=
  board.Produced entities signal network ∨
    ∃ reader ∈ entities, board.Starved entities signal reader ∧
      board.Attached (board.input reader) network

/-- Two networks are joined by a chain of interactions between networks that are grouped. -/
def Bound (board : Board) (entities : List Nat) (signal : Signal) : Nat → Nat → Prop :=
  Relation.ReflTransGen fun first second =>
    board.Interact entities signal first second ∧ board.Known entities signal first ∧
      board.Known entities signal second

theorem Recorded.isConnected_of_uses
    (recorded : board.Recorded entities)
    {point : Endpoint}
    (uses : board.Uses entities signal point) :
    board.isConnected point = true := by
  obtain ⟨entity, listed, ⟨rfl, puts⟩ | ⟨rfl, -, reads⟩⟩ := uses
  · exact recorded.isConnected listed (.inl ⟨rfl, puts⟩)
  · exact recorded.isConnected listed (.inr ⟨rfl, reads⟩)

theorem bound_equivalence
    (board : Board)
    (entities : List Nat)
    (signal : Signal) :
    Equivalence (board.Bound entities signal) where
  refl := fun _ => .refl
  symm := by
    intro first second bound
    refine Relation.ReflTransGen.mono ?_ _ _ (Relation.reflTransGen_swap.mpr bound)
    rintro one two ⟨interact, twoKnown, oneKnown⟩
    exact ⟨interact.symm, oneKnown, twoKnown⟩
  trans := .trans

theorem Bound.known
    {first second : Nat}
    (bound : board.Bound entities signal first second)
    (known : board.Known entities signal first) :
    board.Known entities signal second := by
  induction bound with
  | refl => exact known
  | tail _ last _ => exact last.2.2

/-- Networks that are grouped are linked by such chains. -/
def bounds (unambiguous : board.Unambiguous entities signal) : Linkage board entities signal where
  Linked := board.Bound entities signal
  Known := board.Known entities signal
  Whole := fun entity => entity ∈ entities ∧ board.Starved entities signal entity
  equivalence := board.bound_equivalence entities signal
  interact := fun _ _ interact firstKnown secondKnown => .single ⟨interact, firstKnown, secondKnown⟩
  produced := fun _ => .inl
  unproduced := fun entity listed notWild reads unproduced _ attached =>
    .inr ⟨entity, listed, ⟨notWild, reads, unproduced⟩, attached⟩
  notWild := fun _ whole => whole.2.notWild
  reads := fun _ whole => whole.2.reads
  apart := fun _ whole => whole.2.unproduced
  alike := fun entity whole reader listed reads shared atEntity atReader network =>
    ((unambiguous entity whole.1 whole.2 reader listed (.inl reads) shared atEntity atReader).2
      network).mpr

/-- Another reader on a network of a starved combinator is starved too. -/
theorem Unambiguous.starved
    (unambiguous : board.Unambiguous entities signal)
    {reader other network : Nat}
    (isReader : reader ∈ entities)
    (starved : board.Starved entities signal reader)
    (isOther : other ∈ entities)
    (receives : board.Receives other signal)
    (notWild : ¬board.Wild other)
    (atReader : board.Attached (board.input reader) network)
    (atOther : board.Attached (board.input other) network) :
    board.Starved entities signal other := by
  obtain ⟨reads, same⟩ :=
    unambiguous reader isReader starved other isOther receives network atReader atOther
  exact ⟨notWild, reads.resolve_right notWild,
    fun asked attached => starved.unproduced asked ((same asked).mp attached)⟩

/-! ## The same combinators in another order -/

variable {others : List Nat}

theorem Produced.mono
    (subset : entities ⊆ others)
    {network : Nat}
    (produced : board.Produced entities signal network) :
    board.Produced others signal network := by
  obtain ⟨entity, listed, puts, attached⟩ := produced
  exact ⟨entity, subset listed, puts, attached⟩

theorem Interact.mono
    (subset : entities ⊆ others)
    {first second : Nat}
    (interact : board.Interact entities signal first second) :
    board.Interact others signal first second := by
  cases interact with
  | output listed puts firstAttached secondAttached =>
      exact .output (subset listed) puts firstAttached secondAttached
  | input listed receives firstAttached secondAttached =>
      exact .input (subset listed) receives firstAttached secondAttached
  | forward listed passes firstAttached secondAttached =>
      exact .forward (subset listed) passes firstAttached secondAttached
  | backward listed passes firstAttached secondAttached =>
      exact .backward (subset listed) passes firstAttached secondAttached

theorem Uses.mono
    (subset : entities ⊆ others)
    {point : Endpoint}
    (uses : board.Uses entities signal point) :
    board.Uses others signal point := by
  obtain ⟨entity, listed, use⟩ := uses
  exact ⟨entity, subset listed, use⟩

/-- The same combinators, in any order and any number. -/
structure SameEntities (entities others : List Nat) : Prop where
  subset : entities ⊆ others
  superset : others ⊆ entities

theorem SameEntities.symm
    (same : SameEntities entities others) :
    SameEntities others entities :=
  ⟨same.superset, same.subset⟩

theorem Starved.congr
    (same : SameEntities entities others)
    {entity : Nat}
    (starved : board.Starved entities signal entity) :
    board.Starved others signal entity :=
  ⟨starved.notWild, starved.reads, fun network attached produced =>
    starved.unproduced network attached (produced.mono same.superset)⟩

theorem Known.congr
    (same : SameEntities entities others)
    {network : Nat}
    (known : board.Known entities signal network) :
    board.Known others signal network := by
  rcases known with produced | ⟨reader, isReader, starved, attached⟩
  · exact .inl (produced.mono same.subset)
  · exact .inr ⟨reader, same.subset isReader, starved.congr same, attached⟩

theorem Bound.congr
    (same : SameEntities entities others)
    {first second : Nat}
    (bound : board.Bound entities signal first second) :
    board.Bound others signal first second := by
  refine Relation.ReflTransGen.mono ?_ _ _ bound
  rintro one two ⟨interact, oneKnown, twoKnown⟩
  exact ⟨interact.mono same.subset, oneKnown.congr same, twoKnown.congr same⟩

theorem Unambiguous.congr
    (same : SameEntities entities others)
    (unambiguous : board.Unambiguous entities signal) :
    board.Unambiguous others signal := by
  intro reader isReader starved other isOther
  exact unambiguous reader (same.superset isReader) (starved.congr same.symm) other
    (same.superset isOther)

/-! ## Groups in every order -/

/-- A network that is grouped, at a combinator that receives the signal, has a group after this
combinator. -/
theorem Unambiguous.certain
    (unambiguous : board.Unambiguous entities signal)
    {entity network : Nat}
    (listed : entity ∈ entities)
    (receives : board.Receives entity signal)
    (notWild : ¬board.Wild entity)
    (attached : board.Attached (board.input entity) network)
    (known : board.Known entities signal network) :
    (bounds unambiguous).Certain entity network := by
  rcases known with produced | ⟨reader, isReader, starved, atReader⟩
  · exact .inl produced
  · have alsoStarved :=
      unambiguous.starved isReader starved listed receives notWild atReader attached
    exact .inr ⟨⟨listed, alsoStarved⟩, attached⟩

end Board

namespace SignalGroups

open Collection

variable {board : Board} {entities : List Nat} {signal : Signal} {collection : Collection}

/-- What extraction gives for one signal in every order. -/
structure Settled
    (board : Board)
    (entities : List Nat)
    (signal : Signal)
    (collection : Collection) :
    Prop where
  grouped : Grouped board (board.Bound entities signal) (board.Uses entities signal) collection
  known_iff : ∀ network, (collection.home network).isSome ↔ board.Known entities signal network
  together : ∀ first second, board.Interact entities signal first second →
    board.Known entities signal first → board.Known entities signal second →
      collection.Together first second
  meets : ∀ point network, board.Uses entities signal point → board.Attached point network →
    board.Known entities signal network → collection.Meets point network
  populated : ∀ id < collection.slots.size, ∃ point, collection.HasPoint id (some point)

/-- Networks at an input where a signal is received are in one group. -/
theorem together_of_receives
    (unambiguous : board.Unambiguous entities signal)
    (grouped : Grouped board (board.Bound entities signal) (board.Uses entities signal) collection)
    (received : ∀ entity ∈ entities,
      Received board signal ((Board.bounds unambiguous).Certain entity) entity collection)
    {entity first second : Nat}
    (listed : entity ∈ entities)
    (receives : board.Receives entity signal)
    (firstAttached : board.Attached (board.input entity) first)
    (secondAttached : board.Attached (board.input entity) second)
    (firstKnown : board.Known entities signal first)
    (secondKnown : board.Known entities signal second) :
    collection.Together first second := by
  by_cases isWild : board.Wild entity
  · -- A starved reader on one of the networks is on both of them.
    have shared {reader network : Nat} (isReader : reader ∈ entities)
        (starved : board.Starved entities signal reader)
        (atReader : board.Attached (board.input reader) network)
        (attached : board.Attached (board.input entity) network) :
        collection.Together first second := by
      have same := (unambiguous reader isReader starved entity listed receives network atReader
        attached).2
      have firstAt := (same first).mp firstAttached
      have secondAt := (same second).mp secondAttached
      exact ((received reader isReader).reader starved.notWild starved.reads).together grouped
        firstAt secondAt (.inr ⟨⟨isReader, starved⟩, firstAt⟩)
        (.inr ⟨⟨isReader, starved⟩, secondAt⟩)
    rcases firstKnown with firstProduced | ⟨reader, isReader, starved, atReader⟩
    · rcases secondKnown with secondProduced | ⟨reader, isReader, starved, atReader⟩
      · exact (received entity listed).wild isWild first second firstAttached secondAttached
          (.inl firstProduced) (.inl secondProduced)
      · exact shared isReader starved atReader secondAttached
    · exact shared isReader starved atReader firstAttached
  · exact (received entity listed).together grouped receives firstAttached secondAttached
      (unambiguous.certain listed receives isWild firstAttached firstKnown)
      (unambiguous.certain listed receives isWild secondAttached secondKnown)

theorem settled
    (unambiguous : board.Unambiguous entities signal)
    {groups : SignalGroups}
    (isGroups : groups = entities.foldl (addReaders board)
      (entities.foldl (addOutputs board) SignalMap.empty)) :
    Settled board entities signal (groups.collection signal) := by
  obtain ⟨advance, producers, received⟩ := extract_advance (Board.bounds unambiguous) isGroups
  have grouped := advance.sorted.grouped
  have meets (point : Endpoint) (network : Nat) (uses : board.Uses entities signal point)
      (attached : board.Attached point network) (known : board.Known entities signal network) :
      (groups.collection signal).Meets point network := by
    obtain ⟨entity, listed, ⟨rfl, puts⟩ | ⟨rfl, notWild, reads⟩⟩ := uses
    · exact (producers entity listed puts).meets network attached trivial
    · exact ((received entity listed).reader notWild reads).meets network attached
        (unambiguous.certain listed (.inl reads) notWild attached known)
  have through {entity first second : Nat} (listed : entity ∈ entities)
      (passes : board.Passes entity signal)
      (firstAttached : board.Attached (board.input entity) first)
      (secondAttached : board.Attached (board.output entity) second)
      (firstKnown : board.Known entities signal first) :
      (groups.collection signal).Together first second :=
    ((received entity listed).through passes).2 first second firstAttached secondAttached
      (unambiguous.certain listed (.inr (.inl ⟨passes.passThrough, passes.output⟩)) passes.notWild
        firstAttached firstKnown)
      (.inl ⟨entity, listed, passes.output, secondAttached⟩)
  refine ⟨grouped, fun network => ⟨advance.sorted.known network, ?_⟩, ?_, meets,
    fun id inRange => advance.populated id inRange (Nat.zero_le id)⟩
  · intro known
    obtain ⟨point, uses, attached⟩ : ∃ point, board.Uses entities signal point ∧
        board.Attached point network := by
      rcases known with ⟨entity, listed, puts, attached⟩ | ⟨reader, isReader, starved, attached⟩
      · exact ⟨_, ⟨entity, listed, .inl ⟨rfl, puts⟩⟩, attached⟩
      · exact ⟨_, ⟨reader, isReader, .inr ⟨rfl, starved.notWild, starved.reads⟩⟩, attached⟩
    obtain ⟨id, -, atHome⟩ := meets point network uses attached known
    rw [atHome]
    rfl
  · intro first second interact firstKnown secondKnown
    cases interact with
    | output listed puts firstAttached secondAttached =>
        exact (producers _ listed puts).together grouped firstAttached secondAttached trivial trivial
    | input listed receives firstAttached secondAttached =>
        exact together_of_receives unambiguous grouped received listed receives firstAttached
          secondAttached firstKnown secondKnown
    | forward listed passes firstAttached secondAttached =>
        exact through listed passes firstAttached secondAttached firstKnown
    | backward listed passes firstAttached secondAttached =>
        obtain ⟨root, secondHome, firstHome⟩ :=
          through listed passes secondAttached firstAttached secondKnown
        exact ⟨root, firstHome, secondHome⟩

theorem Settled.together_iff
    (settled : Settled board entities signal collection)
    {first second : Nat}
    (known : board.Known entities signal first) :
    collection.Together first second ↔ board.Bound entities signal first second := by
  constructor
  · rintro ⟨root, firstHome, secondHome⟩
    exact settled.grouped.linked first second root firstHome secondHome
  · intro bound
    induction bound with
    | refl =>
        obtain ⟨root, atHome⟩ := Option.isSome_iff_exists.mp ((settled.known_iff first).mpr known)
        exact ⟨root, atHome, atHome⟩
    | tail _ last inductionHypothesis =>
        obtain ⟨root, firstHome, home⟩ := inductionHypothesis
        obtain ⟨lastRoot, sameHome, lastHome⟩ := settled.together _ _ last.1 last.2.1 last.2.2
        cases home.symm.trans sameHome
        exact ⟨root, firstHome, lastHome⟩

/-- The group of a network: everything that a chain leads to, with the endpoints there. -/
structure IsGroupOf
    (board : Board)
    (entities : List Nat)
    (signal : Signal)
    (anchor : Nat)
    (group : Group) :
    Prop where
  mem_networks_iff : ∀ network, network ∈ group.networks ↔
    board.Bound entities signal anchor network
  mem_points_iff : ∀ point, point ∈ group.points ↔
    ∃ member network, point = some member ∧ board.Uses entities signal member ∧
      board.Attached member network ∧ board.Bound entities signal anchor network

theorem Settled.isGroupOf
    (settled : Settled board entities signal collection)
    (recorded : board.Recorded entities)
    {anchor root : Nat}
    (atHome : collection.home anchor = some root) :
    collection.groupAt root ∈ collection.groups ∧
      IsGroupOf board entities signal anchor (collection.groupAt root) := by
  have wellformed := settled.grouped.wellformed
  have isRoot := wellformed.home_mem_roots atHome
  have rootRoot := wellformed.rooted.root_home atHome
  have known := (settled.known_iff anchor).mp (by rw [atHome]; rfl)
  have sameHome (network : Nat) :
      board.Bound entities signal anchor network ↔ collection.home network = some root := by
    rw [← settled.together_iff known]
    constructor
    · rintro ⟨other, anchorHome, networkHome⟩
      rw [networkHome, ← anchorHome, atHome]
    · intro networkHome
      exact ⟨root, atHome, networkHome⟩
  refine ⟨by rw [groups_eq]; exact List.mem_map_of_mem isRoot, ?_, ?_⟩
  · intro network
    rw [sameHome]
    exact wellformed.mem_networks_iff root (wellformed.mem_roots.mp isRoot).2 network
  · intro point
    constructor
    · intro member
      have has : collection.HasPoint root point := by
        rw [HasPoint, rootRoot]
        exact member
      obtain ⟨used, rfl, uses⟩ := settled.grouped.belongs root point has
      obtain ⟨network, attached, networkHome⟩ :=
        settled.grouped.anchored root used has (recorded.isConnected_of_uses uses)
      exact ⟨used, network, rfl, uses, attached,
        (sameHome network).mpr (by rw [networkHome, rootRoot])⟩
    · rintro ⟨used, network, rfl, uses, attached, bound⟩
      obtain ⟨id, has, networkHome⟩ :=
        settled.meets used network uses attached (bound.known known)
      have isId : collection.root id = root :=
        Option.some.inj (networkHome.symm.trans ((sameHome network).mp bound))
      rw [HasPoint, isId] at has
      exact has

/-- Every group has a network. -/
theorem Settled.exists_home_of_mem_roots
    (settled : Settled board entities signal collection)
    (recorded : board.Recorded entities)
    {root : Nat}
    (isRoot : root ∈ collection.roots) :
    ∃ anchor, collection.home anchor = some root := by
  obtain ⟨inRange, isParent⟩ := settled.grouped.wellformed.mem_roots.mp isRoot
  obtain ⟨point, has⟩ := settled.populated root inRange
  obtain ⟨used, isUsed, uses⟩ := settled.grouped.belongs root _ has
  cases isUsed
  obtain ⟨anchor, -, atHome⟩ :=
    settled.grouped.anchored root point has (recorded.isConnected_of_uses uses)
  exact ⟨anchor, by rw [atHome, root_of_isRoot isParent]⟩

/-- Every group is that of a network. -/
theorem Settled.exists_home
    (settled : Settled board entities signal collection)
    (recorded : board.Recorded entities)
    {group : Group}
    (isGroup : group ∈ collection.groups) :
    ∃ anchor root, collection.home anchor = some root ∧ group = collection.groupAt root := by
  rw [groups_eq] at isGroup
  obtain ⟨root, isRoot, rfl⟩ := List.mem_map.mp isGroup
  obtain ⟨anchor, atHome⟩ := settled.exists_home_of_mem_roots recorded isRoot
  exact ⟨anchor, root, atHome, rfl⟩

/-! ## The signals -/

theorem mem_keys_foldl
    (step : SignalGroups → Signal → SignalGroups)
    (inserts : ∀ groups signal, ∃ collection, step groups signal = groups.insert signal collection)
    (signals : List Signal)
    (groups : SignalGroups)
    (asked : Signal) :
    asked ∈ SignalMap.keys (signals.foldl step groups) ↔
      asked ∈ SignalMap.keys groups ∨ asked ∈ signals := by
  induction signals generalizing groups with
  | nil =>
      simp
  | cons signal rest inductionHypothesis =>
      obtain ⟨collection, inserted⟩ := inserts groups signal
      rw [List.foldl_cons, inductionHypothesis, inserted, SignalMap.mem_keys_insert, List.mem_cons]
      tauto

theorem mem_keys_addOutputs
    (board : Board)
    (groups : SignalGroups)
    (entity : Nat)
    (asked : Signal) :
    asked ∈ SignalMap.keys (addOutputs board groups entity) ↔
      asked ∈ SignalMap.keys groups ∨ asked ∈ (board.entity entity).body.outputs :=
  mem_keys_foldl (addOutput board (board.output entity)) (fun _ _ => ⟨_, rfl⟩) _ groups asked

theorem mem_keys_addReaders
    (board : Board)
    (groups : SignalGroups)
    (entity : Nat)
    (outputs : ∀ signal ∈ (board.entity entity).body.outputs, signal ∈ SignalMap.keys groups)
    (asked : Signal) :
    asked ∈ SignalMap.keys (addReaders board groups entity) ↔
      asked ∈ SignalMap.keys groups ∨
        (¬board.Wild entity ∧ asked ∈ (board.entity entity).body.operands) := by
  have read := mem_keys_foldl (addReader board (board.input entity)) (fun _ _ => ⟨_, rfl⟩)
    (board.entity entity).body.operands groups asked
  simp only [addReaders, Board.Wild]
  split
  · rename_i isWild
    rw [mem_keys_foldl (mergeAt board (board.input entity)) (fun _ _ => ⟨_, rfl⟩)]
    simp [isWild]
  · rename_i notWild
    split
    · rw [mem_keys_foldl _ (exists_mergeThrough_eq board entity), read]
      have := outputs asked
      tauto
    · rw [read]
      simp [notWild]

theorem mem_keys_foldl_addOutputs
    (board : Board)
    (entities : List Nat)
    (groups : SignalGroups)
    (asked : Signal) :
    asked ∈ SignalMap.keys (entities.foldl (addOutputs board) groups) ↔
      asked ∈ SignalMap.keys groups ∨
        ∃ entity ∈ entities, asked ∈ (board.entity entity).body.outputs := by
  induction entities generalizing groups with
  | nil =>
      simp
  | cons entity rest inductionHypothesis =>
      rw [List.foldl_cons, inductionHypothesis, mem_keys_addOutputs, List.exists_mem_cons_iff]
      tauto

theorem mem_keys_foldl_addReaders
    (board : Board)
    (entities : List Nat)
    (groups : SignalGroups)
    (outputs : ∀ entity ∈ entities, ∀ signal ∈ (board.entity entity).body.outputs,
      signal ∈ SignalMap.keys groups)
    (asked : Signal) :
    asked ∈ SignalMap.keys (entities.foldl (addReaders board) groups) ↔
      asked ∈ SignalMap.keys groups ∨
        ∃ entity ∈ entities,
          ¬board.Wild entity ∧ asked ∈ (board.entity entity).body.operands := by
  induction entities generalizing groups with
  | nil =>
      simp
  | cons entity rest inductionHypothesis =>
      have grown := mem_keys_addReaders board groups entity (outputs entity List.mem_cons_self)
      rw [List.foldl_cons, inductionHypothesis, grown, List.exists_mem_cons_iff]
      · tauto
      · intro other isOther signal puts
        exact (grown signal).mpr (.inl (outputs other (List.mem_cons_of_mem _ isOther) signal puts))

/-- The signals with groups are those that an endpoint is grouped for. -/
theorem mem_keys_extract
    {groups : SignalGroups}
    (isGroups : groups = entities.foldl (addReaders board)
      (entities.foldl (addOutputs board) SignalMap.empty)) :
    signal ∈ SignalMap.keys groups ↔ ∃ point, board.Uses entities signal point := by
  have outputs (asked : Signal) :
      asked ∈ SignalMap.keys (entities.foldl (addOutputs board) SignalMap.empty) ↔
        ∃ entity ∈ entities, asked ∈ (board.entity entity).body.outputs := by
    rw [mem_keys_foldl_addOutputs]
    simp [SignalMap.keys, SignalMap.empty]
  rw [isGroups, mem_keys_foldl_addReaders board entities _
    (fun entity listed asked puts => (outputs asked).mpr ⟨entity, listed, puts⟩), outputs]
  constructor
  · rintro (⟨entity, listed, puts⟩ | ⟨entity, listed, notWild, reads⟩)
    · exact ⟨_, entity, listed, .inl ⟨rfl, puts⟩⟩
    · exact ⟨_, entity, listed, .inr ⟨rfl, notWild, reads⟩⟩
  · rintro ⟨point, entity, listed, ⟨-, puts⟩ | ⟨-, notWild, reads⟩⟩
    · exact .inl ⟨entity, listed, puts⟩
    · exact .inr ⟨entity, listed, notWild, reads⟩

/-! ## Reordering -/

/-- Groups as sets of their networks and endpoints. -/
def partition (groups : List Group) : Finset (Finset Nat × Finset (Option Endpoint)) :=
  (groups.map fun group => (group.networks.toFinset, group.points.toFinset)).toFinset

variable {others : List Nat} {other : Collection}

theorem partition_subset
    (same : Board.SameEntities entities others)
    (recorded : board.Recorded entities)
    (recordedOthers : board.Recorded others)
    (settled : Settled board entities signal collection)
    (settledOther : Settled board others signal other) :
    partition collection.groups ⊆ partition other.groups := by
  intro members isMembers
  simp only [partition, List.mem_toFinset, List.mem_map] at isMembers ⊢
  obtain ⟨group, isGroup, rfl⟩ := isMembers
  obtain ⟨anchor, root, atHome, rfl⟩ := settled.exists_home recorded isGroup
  have known := (settled.known_iff anchor).mp (by rw [atHome]; rfl)
  obtain ⟨otherRoot, atOther⟩ :=
    Option.isSome_iff_exists.mp ((settledOther.known_iff anchor).mpr (known.congr same))
  have isGroupOf := (settled.isGroupOf recorded atHome).2
  obtain ⟨isOther, isOtherGroup⟩ := settledOther.isGroupOf recordedOthers atOther
  have boundIff (network : Nat) :
      board.Bound others signal anchor network ↔ board.Bound entities signal anchor network :=
    ⟨.congr same.symm, .congr same⟩
  have usesIff (point : Endpoint) :
      board.Uses others signal point ↔ board.Uses entities signal point :=
    ⟨.mono same.superset, .mono same.subset⟩
  refine ⟨_, isOther, Prod.ext ?_ ?_⟩
  · ext network
    simp only [List.mem_toFinset, isOtherGroup.mem_networks_iff, isGroupOf.mem_networks_iff,
      boundIff]
  · ext point
    simp only [List.mem_toFinset, isOtherGroup.mem_points_iff, isGroupOf.mem_points_iff, boundIff,
      usesIff]

/-- Combinators that are listed in another order have groups of the same signals. The groups of a
signal have the same members too, unless a starved reader of the signal shares a network with a
combinator that passes it on without reading it, or that is not on the same networks. -/
theorem extract_perm
    (board : Board)
    (entities others : List Nat)
    (recorded : board.Recorded entities)
    (reordered : entities.Perm others) :
    ∃ groups otherGroups,
      extract board entities = .ok groups ∧ extract board others = .ok otherGroups ∧
        (∀ signal, signal ∈ SignalMap.keys groups ↔ signal ∈ SignalMap.keys otherGroups) ∧
        ∀ signal, board.Unambiguous entities signal →
          partition (groups.collection signal).groups =
            partition (otherGroups.collection signal).groups := by
  have same : Board.SameEntities entities others := ⟨reordered.subset, reordered.symm.subset⟩
  have recordedOthers : board.Recorded others :=
    fun entity listed => recorded entity (same.superset listed)
  refine ⟨_, _, extract_eq fun _ => recorded.isCombinator,
    extract_eq fun _ => recordedOthers.isCombinator, ?_, ?_⟩
  · intro signal
    rw [mem_keys_extract rfl, mem_keys_extract rfl]
    exact ⟨fun ⟨point, uses⟩ => ⟨point, uses.mono same.subset⟩,
      fun ⟨point, uses⟩ => ⟨point, uses.mono same.superset⟩⟩
  · intro signal unambiguous
    have first := settled unambiguous rfl
    have second := settled (unambiguous.congr same) rfl
    exact (partition_subset same recorded recordedOthers first second).antisymm
      (partition_subset same.symm recordedOthers recorded second first)

/-- A constant with two deciders that read the same signal. The first of them gets the count of the
constant over a wire of the given color, the second one is joined to the first by red wires. -/
def listeners (color : Color) : Board :=
  let board := ({} : Board).add (.ofCount 5)
  let listener : Body := .decider
    { comparator := .greater, first := .value, second := .constant 0, output := .control,
      copyCount := false }
  let board := ((board.add listener).add listener).wire color [⟨0, .one⟩, ⟨1, .one⟩]
  (board.wire .red [⟨1, .one⟩, ⟨2, .one⟩]).wire .red [⟨1, .two⟩, ⟨2, .two⟩]

/-- If the first decider gets the count over a green wire, the second one is starved. It makes a
group of the red network, which the first decider merges with that of the green one only if it comes
later. -/
theorem extract_listeners_ne :
    (listeners .green).Recorded [0, 1, 2] ∧ [0, 1, 2].Perm [0, 2, 1] ∧
      ∃ groups otherGroups,
        extract (listeners .green) [0, 1, 2] = .ok groups ∧
          extract (listeners .green) [0, 2, 1] = .ok otherGroups ∧
            partition (groups.collection .value).groups ≠
              partition (otherGroups.collection .value).groups := by
  have recorded : (listeners .green).Recorded [0, 1, 2] :=
    Board.recorded_of_isConnected (by decide +kernel)
  refine ⟨recorded, by decide, _, _, extract_eq fun _ => recorded.isCombinator,
    extract_eq (by decide +kernel), by decide +kernel⟩

/-- If both deciders get the count, their order makes no difference. -/
theorem extract_perm_listeners :
    ∃ groups otherGroups,
      extract (listeners .red) [0, 1, 2] = .ok groups ∧
        extract (listeners .red) [0, 2, 1] = .ok otherGroups ∧
          (∀ signal, signal ∈ SignalMap.keys groups ↔ signal ∈ SignalMap.keys otherGroups) ∧
            partition (groups.collection .value).groups =
              partition (otherGroups.collection .value).groups := by
  have recorded : (listeners .red).Recorded [0, 1, 2] :=
    Board.recorded_of_isConnected (by decide +kernel)
  have unambiguous : (listeners .red).Unambiguous [0, 1, 2] .value := by
    intro reader isReader starved
    have attached : ∀ reader ∈ [0, 1, 2],
        (listeners .red).network? .red ((listeners .red).input reader) = some 0 := by
      decide +kernel
    exact absurd ⟨0, by simp, by decide +kernel, .red, by decide +kernel⟩
      (starved.unproduced 0 ⟨.red, attached reader isReader⟩)
  obtain ⟨groups, otherGroups, extracts, extractsOther, keys, partitions⟩ :=
    extract_perm (listeners .red) [0, 1, 2] [0, 2, 1] recorded (by decide)
  exact ⟨groups, otherGroups, extracts, extractsOther, keys, partitions .value unambiguous⟩

end SignalGroups

end CircuitNetwork
