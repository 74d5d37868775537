import CircuitNetwork.Proofs.Groups.Extraction
import Mathlib.Data.List.Nodup

namespace CircuitNetwork

/-!
# Groups as connected components

The groups of a signal are read off the roots of its collection. Every network
that the signal is put onto, and every connected endpoint that uses the signal, is
in exactly one of them. Networks are grouped along the chains of interactions
between them, and only along those.
-/

namespace Collection

variable {collection : Collection}

/-- The identities of the current groups. -/
def roots (collection : Collection) : List Nat :=
  (List.range collection.slots.size).filter fun id =>
    collection.parent id = id ∧ !collection.isRenamed id

theorem groups_eq
    (collection : Collection) :
    collection.groups = collection.roots.map collection.groupAt := by
  have numbered : List.range collection.slots.size = collection.slots.toList.zipIdx.map Prod.snd := by
    rw [List.zipIdx_map_snd, List.range_eq_range', Array.length_toList]
  rw [groups, roots, numbered, ← List.filterMap_eq_map, List.filterMap_filter, List.filterMap_map]
  apply List.filterMap_congr
  intro entry isEntry
  have found : collection.slots[entry.2]? = some entry.1 := by
    rw [← Array.getElem?_toList]
    exact List.mem_zipIdx_iff_getElem?.mp isEntry
  simp [parent, isRenamed, groupAt, found]

theorem Rooted.roots_eq
    (rooted : collection.Rooted) :
    collection.roots =
      (List.range collection.slots.size).filter fun id =>
        collection.root id = id ∧ !collection.isRenamed id := by
  simp only [roots, rooted.parent_eq_self_iff]

theorem Wellformed.mem_roots
    (wellformed : collection.Wellformed)
    {id : Nat} :
    id ∈ collection.roots ↔ id < collection.slots.size ∧ collection.parent id = id := by
  simp [roots, wellformed.live]

theorem Wellformed.home_mem_roots
    (wellformed : collection.Wellformed)
    {network root : Nat}
    (atHome : collection.home network = some root) :
    root ∈ collection.roots := by
  have isRoot := wellformed.rooted.parent_root root
  rw [wellformed.rooted.root_home atHome] at isRoot
  exact wellformed.mem_roots.mpr ⟨wellformed.home_lt atHome, isRoot⟩

/-- A property that the group of one root has, and that of no other root. -/
theorem filter_groups
    {Chosen : Group → Bool}
    {root : Nat}
    (isRoot : root ∈ collection.roots)
    (only : ∀ id ∈ collection.roots, Chosen (collection.groupAt id) = true ↔ id = root) :
    collection.groups.filter Chosen = [collection.groupAt root] := by
  have chosen : collection.roots.filter (Chosen ∘ collection.groupAt) = [root] := by
    have distinct : collection.roots.Nodup := List.nodup_range.filter _
    rw [List.filter_congr (q := fun id => id == root) (by
      intro id isId
      rw [Bool.eq_iff_iff, Function.comp_apply, only id isId, beq_iff_eq]),
      List.filter_beq, List.count_eq_one_of_mem distinct isRoot, List.replicate_one]
  rw [groups_eq, List.filter_map, chosen, List.map_singleton]

end Collection

/-- The groups of a signal are the connected components of its networks and endpoints. -/
structure Components
    (board : Board)
    (entities : List Nat)
    (signal : Signal)
    (groups : List Group) :
    Prop where
  /-- A network that the signal is put onto is in exactly one group. -/
  network : ∀ network, board.Produced entities signal network →
    ∃ group, groups.filter (fun group => network ∈ group.networks) = [group]
  /-- A connected output is in exactly one group, that of its networks. -/
  output : ∀ entity ∈ entities, signal ∈ (board.entity entity).body.outputs →
    board.isConnected (board.output entity) →
      ∃ group, groups.filter (fun group => some (board.output entity) ∈ group.points) = [group] ∧
        ∀ network, board.Attached (board.output entity) network → network ∈ group.networks
  /-- A connected input is in exactly one group, that of its networks that the signal is put onto. -/
  reader : ∀ entity ∈ entities, ¬board.Wild entity →
    signal ∈ (board.entity entity).body.operands → board.isConnected (board.input entity) →
      ∃ group, groups.filter (fun group => some (board.input entity) ∈ group.points) = [group] ∧
        ∀ network, board.Attached (board.input entity) network →
          board.Produced entities signal network → network ∈ group.networks
  /-- A chain of networks that the signal is put onto does not leave a group. -/
  complete : ∀ first second, board.Produced entities signal first →
    Relation.ReflTransGen (fun one two => board.Interact entities signal one two ∧
      board.Produced entities signal two) first second →
        ∃ group ∈ groups, first ∈ group.networks ∧ second ∈ group.networks
  /-- The networks of a group are joined by chains. -/
  sound : ∀ group ∈ groups, ∀ first ∈ group.networks, ∀ second ∈ group.networks,
    board.Chained entities signal first second
  /-- The endpoints of a group use the signal. -/
  uses : ∀ group ∈ groups, ∀ point ∈ group.points,
    ∃ member, point = some member ∧ board.Uses entities signal member

namespace SignalGroups

open Collection

variable {board : Board} {entities : List Nat} {signal : Signal} {collection : Collection}

/-- The networks of the group at the home of a network. -/
theorem Extracted.mem_networks_iff
    (extracted : Extracted board entities signal collection)
    {id : Nat}
    (isRoot : id ∈ collection.roots)
    {network : Nat} :
    network ∈ (collection.groupAt id).networks ↔ collection.home network = some id :=
  extracted.grouped.wellformed.mem_networks_iff id
    (extracted.grouped.wellformed.mem_roots.mp isRoot).2 network

/-- An endpoint in a group of its networks is in no other group. -/
theorem Extracted.exists_group
    (extracted : Extracted board entities signal collection)
    {point : Endpoint}
    {Known : Nat → Prop}
    (housed : Housed board point Known collection)
    (connected : board.isConnected point = true) :
    ∃ group, collection.groups.filter (fun group => some point ∈ group.points) = [group] ∧
      ∀ network, board.Attached point network → Known network → network ∈ group.networks := by
  have grouped := extracted.grouped
  have wellformed := grouped.wellformed
  obtain ⟨id, has⟩ := housed.exists_hasPoint
  obtain ⟨anchor, -, atHome⟩ := grouped.anchored id point has connected
  have isRoot := wellformed.home_mem_roots atHome
  refine ⟨_, filter_groups isRoot ?_, ?_⟩
  · intro asked isAsked
    have askedRoot : collection.root asked = asked :=
      root_of_isRoot (wellformed.mem_roots.mp isAsked).2
    rw [decide_eq_true_iff]
    constructor
    · intro member
      have askedHas : collection.HasPoint asked (some point) := by
        rw [HasPoint, askedRoot]
        exact member
      rw [← askedRoot, grouped.single asked id point askedHas has connected]
    · rintro rfl
      exact has
  · intro network attached known
    obtain ⟨other, otherHas, otherHome⟩ := housed.meets network attached known
    rw [grouped.single other id point otherHas has connected] at otherHome
    exact (extracted.mem_networks_iff isRoot).mpr otherHome

theorem Extracted.together_of_interact
    (extracted : Extracted board entities signal collection)
    {first second : Nat}
    (interact : board.Interact entities signal first second)
    (firstProduced : board.Produced entities signal first)
    (secondProduced : board.Produced entities signal second) :
    collection.Together first second := by
  cases interact with
  | output listed puts firstAttached secondAttached =>
      exact (extracted.producer _ listed puts).together extracted.grouped firstAttached
        secondAttached trivial trivial
  | input listed receives firstAttached secondAttached =>
      exact (extracted.received _ listed).together extracted.grouped receives firstAttached
        secondAttached firstProduced secondProduced
  | forward listed passes firstAttached secondAttached =>
      exact ((extracted.received _ listed).through passes).2 first second firstAttached
        secondAttached firstProduced secondProduced
  | backward listed passes firstAttached secondAttached =>
      obtain ⟨root, secondHome, firstHome⟩ := ((extracted.received _ listed).through passes).2
        second first secondAttached firstAttached secondProduced firstProduced
      exact ⟨root, firstHome, secondHome⟩

theorem Extracted.exists_home
    (extracted : Extracted board entities signal collection)
    {network : Nat}
    (produced : board.Produced entities signal network) :
    ∃ root, collection.home network = some root := by
  obtain ⟨entity, listed, puts, attached⟩ := produced
  obtain ⟨id, -, atHome⟩ := (extracted.producer entity listed puts).meets network attached trivial
  exact ⟨_, atHome⟩

/-- A chain of networks that the signal is put onto does not leave a group. -/
theorem Extracted.together_of_chain
    (extracted : Extracted board entities signal collection)
    {first second : Nat}
    (firstProduced : board.Produced entities signal first)
    (chain : Relation.ReflTransGen (fun one two => board.Interact entities signal one two ∧
      board.Produced entities signal two) first second) :
    board.Produced entities signal second ∧ collection.Together first second := by
  induction chain with
  | refl =>
      obtain ⟨root, atHome⟩ := extracted.exists_home firstProduced
      exact ⟨firstProduced, root, atHome, atHome⟩
  | tail _ last inductionHypothesis =>
      obtain ⟨interact, lastProduced⟩ := last
      obtain ⟨produced, root, firstHome, home⟩ := inductionHypothesis
      obtain ⟨lastRoot, sameHome, lastHome⟩ :=
        extracted.together_of_interact interact produced lastProduced
      cases home.symm.trans sameHome
      exact ⟨lastProduced, root, firstHome, lastHome⟩

theorem Extracted.components
    (extracted : Extracted board entities signal collection) :
    Components board entities signal collection.groups where
  network := by
    intro network produced
    obtain ⟨root, atHome⟩ := extracted.exists_home produced
    refine ⟨_, filter_groups (extracted.grouped.wellformed.home_mem_roots atHome) ?_⟩
    intro id isRoot
    rw [decide_eq_true_iff, extracted.mem_networks_iff isRoot, atHome, Option.some.injEq, eq_comm]
  output := by
    intro entity listed puts connected
    obtain ⟨group, alone, networks⟩ :=
      extracted.exists_group (extracted.producer entity listed puts) connected
    exact ⟨group, alone, fun network attached => networks network attached trivial⟩
  reader := by
    intro entity listed notWild reads connected
    exact extracted.exists_group ((extracted.received entity listed).reader notWild reads) connected
  complete := by
    intro first second firstProduced chain
    obtain ⟨-, root, firstHome, secondHome⟩ := extracted.together_of_chain firstProduced chain
    have isRoot := extracted.grouped.wellformed.home_mem_roots firstHome
    refine ⟨collection.groupAt root, ?_, (extracted.mem_networks_iff isRoot).mpr firstHome,
      (extracted.mem_networks_iff isRoot).mpr secondHome⟩
    rw [groups_eq]
    exact List.mem_map_of_mem isRoot
  sound := by
    intro group isGroup first isFirst second isSecond
    rw [groups_eq] at isGroup
    obtain ⟨root, isRoot, rfl⟩ := List.mem_map.mp isGroup
    exact extracted.grouped.linked first second root
      ((extracted.mem_networks_iff isRoot).mp isFirst)
      ((extracted.mem_networks_iff isRoot).mp isSecond)
  uses := by
    intro group isGroup point isPoint
    rw [groups_eq] at isGroup
    obtain ⟨root, isRoot, rfl⟩ := List.mem_map.mp isGroup
    apply extracted.grouped.belongs root point
    rw [HasPoint, root_of_isRoot (extracted.grouped.wellformed.mem_roots.mp isRoot).2]
    exact isPoint

/-- The signal groups of a list of combinators are the connected components of every signal. -/
theorem extract_components
    (board : Board)
    (entities : List Nat)
    (combinators : ∀ entity ∈ entities, (board.entity entity).body.isCombinator = true) :
    ∃ groups, extract board entities = .ok groups ∧
      ∀ signal, Components board entities signal (groups.collection signal).groups := by
  obtain ⟨groups, extracts, extracted⟩ := exists_extract_eq combinators
  exact ⟨groups, extracts, fun signal => (extracted signal).components⟩

/-- A constant whose count a decider passes on. -/
def relay : Board :=
  ((({} : Board).add (.ofCount 1)).add
    (.decider { comparator := .notEqual, first := .value, second := .constant 0, output := .value,
                copyCount := true })).wire .red [⟨0, .one⟩, ⟨1, .one⟩]

theorem extract_components_relay :
    ∃ groups, extract relay [0, 1] = .ok groups ∧
      ∀ signal, Components relay [0, 1] signal (groups.collection signal).groups :=
  extract_components relay [0, 1] (by decide +kernel)

end SignalGroups

end CircuitNetwork
