import CircuitNetwork.Proofs.Groups.Forest

namespace CircuitNetwork

/-!
# Members of groups

A network belongs to the group at the root of its owner, and to no other. What
the operations of a collection do to roots, owners and members.
-/

namespace Group

theorem mem_points_addPoint
    (group : Group)
    (point asked : Option Endpoint) :
    asked ∈ (group.addPoint point).points ↔ asked ∈ group.points ∨ asked = point := by
  unfold addPoint
  split
  · rename_i present
    simp only [List.contains_iff_mem] at present
    exact ⟨.inl, fun member => member.elim (fun already => already) fun same => same ▸ present⟩
  · simp

theorem mem_networks_addNetwork
    (group : Group)
    (network asked : Nat) :
    asked ∈ (group.addNetwork network).networks ↔ asked ∈ group.networks ∨ asked = network := by
  unfold addNetwork
  split
  · rename_i present
    simp only [List.contains_iff_mem] at present
    exact ⟨.inl, fun member => member.elim (fun already => already) fun same => same ▸ present⟩
  · simp

@[simp] theorem networks_addPoint
    (group : Group)
    (point : Option Endpoint) :
    (group.addPoint point).networks = group.networks := by
  unfold addPoint
  split <;> rfl

@[simp] theorem points_addNetwork
    (group : Group)
    (network : Nat) :
    (group.addNetwork network).points = group.points := by
  unfold addNetwork
  split <;> rfl

theorem members_foldl_addPoint
    (points : List (Option Endpoint))
    (group : Group) :
    (points.foldl addPoint group).networks = group.networks ∧
      ∀ asked, asked ∈ (points.foldl addPoint group).points ↔
        asked ∈ group.points ∨ asked ∈ points := by
  induction points generalizing group with
  | nil =>
      simp
  | cons point rest inductionHypothesis =>
      obtain ⟨networks, members⟩ := inductionHypothesis (group.addPoint point)
      refine ⟨networks.trans (group.networks_addPoint point), fun asked => ?_⟩
      rw [List.foldl_cons, members, mem_points_addPoint, List.mem_cons, or_assoc]

theorem members_foldl_addNetwork
    (networks : List Nat)
    (group : Group) :
    (networks.foldl addNetwork group).points = group.points ∧
      ∀ asked, asked ∈ (networks.foldl addNetwork group).networks ↔
        asked ∈ group.networks ∨ asked ∈ networks := by
  induction networks generalizing group with
  | nil =>
      simp
  | cons network rest inductionHypothesis =>
      obtain ⟨points, members⟩ := inductionHypothesis (group.addNetwork network)
      refine ⟨points.trans (group.points_addNetwork network), fun asked => ?_⟩
      rw [List.foldl_cons, members, mem_networks_addNetwork, List.mem_cons, or_assoc]

theorem mem_points_absorb
    (group other : Group)
    (asked : Option Endpoint) :
    asked ∈ (group.absorb other).points ↔ asked ∈ group.points ∨ asked ∈ other.points := by
  rw [absorb, (members_foldl_addNetwork _ _).1, (members_foldl_addPoint _ _).2]

theorem mem_networks_absorb
    (group other : Group)
    (asked : Nat) :
    asked ∈ (group.absorb other).networks ↔ asked ∈ group.networks ∨ asked ∈ other.networks := by
  rw [absorb, (members_foldl_addNetwork _ _).2, (members_foldl_addPoint _ _).1]

end Group

namespace Collection

variable {collection : Collection}

/-- The root of the group that a network belongs to. -/
def home (collection : Collection) (network : Nat) : Option Nat :=
  (collection.owners.lookup network).map collection.root

/-- Whether the group of an identity has an endpoint. -/
def HasPoint (collection : Collection) (id : Nat) (point : Option Endpoint) : Prop :=
  point ∈ (collection.groupAt (collection.root id)).points

theorem hasPoint_congr
    {id asked : Nat}
    (same : collection.root id = collection.root asked)
    (point : Option Endpoint) :
    collection.HasPoint id point ↔ collection.HasPoint asked point := by
  rw [HasPoint, same, HasPoint]

/-- A collection in which roots are found, each network is in the group of its owner only, and no
group was renamed. -/
structure Wellformed (collection : Collection) : Prop where
  rooted : collection.Rooted
  parent_lt : ∀ id < collection.slots.size, collection.parent id < collection.slots.size
  owner_lt : ∀ network id, collection.owners.lookup network = some id →
    id < collection.slots.size
  mem_networks_iff : ∀ id, collection.parent id = id → ∀ network,
    network ∈ (collection.groupAt id).networks ↔ collection.home network = some id
  live : ∀ id, collection.isRenamed id = false

theorem Wellformed.root_lt
    (wellformed : collection.Wellformed)
    {id : Nat}
    (inRange : id < collection.slots.size) :
    collection.root id < collection.slots.size := by
  obtain ⟨steps, leads⟩ := wellformed.rooted.leads_root id
  generalize collection.root id = root at leads
  induction leads with
  | root _ =>
      exact inRange
  | step _ _ inductionHypothesis =>
      exact inductionHypothesis (wellformed.parent_lt _ inRange)

theorem Wellformed.home_lt
    (wellformed : collection.Wellformed)
    {network root : Nat}
    (atHome : collection.home network = some root) :
    root < collection.slots.size := by
  obtain ⟨owner, owned, rfl⟩ := Option.map_eq_some_iff.mp atHome
  exact wellformed.root_lt (wellformed.owner_lt network owner owned)

theorem Rooted.root_home
    (rooted : collection.Rooted)
    {network root : Nat}
    (atHome : collection.home network = some root) :
    collection.root root = root := by
  obtain ⟨owner, -, rfl⟩ := Option.map_eq_some_iff.mp atHome
  exact rooted.root_root owner

/-! ## Looking up -/

namespace SameForest

variable {other : Collection}

theorem home_eq
    (same : SameForest collection other)
    (rooted : collection.Rooted)
    (network : Nat) :
    other.home network = collection.home network := by
  rw [home, same.owners_eq, home]
  congr 1
  funext id
  exact same.root_eq rooted id

theorem hasPoint_iff
    (same : SameForest collection other)
    (rooted : collection.Rooted)
    (id : Nat)
    (point : Option Endpoint) :
    other.HasPoint id point ↔ collection.HasPoint id point := by
  rw [HasPoint, same.root_eq rooted, same.groupAt_eq, HasPoint]

theorem wellformed
    (same : SameForest collection other)
    (wellformed : collection.Wellformed) :
    other.Wellformed where
  rooted := same.rooted wellformed.rooted
  parent_lt := by
    intro id inRange
    rw [same.size_eq] at inRange ⊢
    by_contra outside
    have isRoot : other.parent (other.parent id) = other.parent id := by
      by_contra isChild
      exact outside (same.size_eq ▸ lt_size_of_isChild isChild)
    have isChild : other.parent id ≠ id := by omega
    have rootEq := (Leads.step isChild (.root isRoot)).root_eq
    rw [same.root_eq wellformed.rooted] at rootEq
    exact outside (rootEq ▸ wellformed.root_lt inRange)
  owner_lt := by
    intro network id owned
    rw [same.owners_eq] at owned
    rw [same.size_eq]
    exact wellformed.owner_lt network id owned
  mem_networks_iff := by
    intro id isRoot network
    have rootEq := (same.root_eq wellformed.rooted id).symm.trans (root_of_isRoot isRoot)
    have isRootBefore := rootEq ▸ wellformed.rooted.parent_root id
    rw [same.groupAt_eq, same.home_eq wellformed.rooted]
    exact wellformed.mem_networks_iff id isRootBefore network
  live := by
    intro id
    rw [same.isRenamed_eq]
    exact wellformed.live id

end SameForest

theorem Rooted.lookup_eq
    (rooted : collection.Rooted)
    (network : Option Nat) :
    ∃ other, collection.lookup network = (network.bind collection.home, other) ∧
      SameForest collection other := by
  cases network with
  | none =>
      exact ⟨collection, rfl, .refl collection⟩
  | some network =>
      simp only [lookup, Option.bind_some, home]
      cases collection.owners.lookup network with
      | none =>
          exact ⟨collection, rfl, .refl collection⟩
      | some owner =>
          obtain ⟨found, foundEq, same⟩ := rooted.find_eq owner
          exact ⟨found, by simp [foundEq], same⟩

theorem Rooted.lookup_fst_eq
    (rooted : collection.Rooted)
    (network : Option Nat) :
    (collection.lookup network).1 = network.bind collection.home := by
  obtain ⟨found, foundEq, -⟩ := rooted.lookup_eq network
  rw [foundEq]

theorem Rooted.group_eq
    (rooted : collection.Rooted)
    (id : Nat) :
    (collection.group id).1 = collection.groupAt (collection.root id) := by
  obtain ⟨found, foundEq, same⟩ := rooted.find_eq id
  simp only [group, foundEq, same.groupAt_eq]

/-! ## Merging -/

/-- One slot of a collection after a link. -/
theorem getElem?_link
    (collection : Collection)
    {root child : Nat}
    (apart : root ≠ child)
    (asked : Nat) :
    ∃ raised : Nat,
      (collection.link root child).slots[asked]? =
        if asked = child then
          collection.slots[child]?.map fun slot =>
            { slot with parent := root, group := { id := child } }
        else if asked = root then
          collection.slots[root]?.map fun slot =>
            { slot with
              rank := slot.rank + raised
              group := slot.group.absorb (collection.groupAt child) }
        else collection.slots[asked]? := by
  refine ⟨if collection.rank root = collection.rank child then 1 else 0, ?_⟩
  rw [link, getElem?_modifySlot, getElem?_modifySlot, if_neg apart.symm, getElem?_modifySlot]

@[simp] theorem size_link
    (collection : Collection)
    (root child : Nat) :
    (collection.link root child).slots.size = collection.slots.size := by
  simp [link]

theorem parent_link
    {root child : Nat}
    (apart : root ≠ child)
    (inRange : child < collection.slots.size)
    (asked : Nat) :
    (collection.link root child).parent asked =
      if asked = child then root else collection.parent asked := by
  obtain ⟨raised, slotEq⟩ := collection.getElem?_link apart asked
  rw [parent, slotEq]
  split
  · simp [inRange]
  · split
    · rename_i same
      subst same
      rw [parent, Option.map_map]
      rfl
    · rfl

theorem groupAt_link
    {root child : Nat}
    (apart : root ≠ child)
    (rootInRange : root < collection.slots.size)
    (asked : Nat) :
    (collection.link root child).groupAt asked =
      if asked = child then { id := child }
      else if asked = root then
        (collection.groupAt root).absorb (collection.groupAt child)
      else collection.groupAt asked := by
  obtain ⟨raised, slotEq⟩ := collection.getElem?_link apart asked
  rw [groupAt, slotEq]
  split
  · rename_i same
    subst same
    cases collection.slots[asked]? <;> rfl
  · split
    · simp [groupAt, rootInRange]
    · rfl

theorem isRenamed_link
    {root child : Nat}
    (apart : root ≠ child)
    (asked : Nat) :
    (collection.link root child).isRenamed asked = collection.isRenamed asked := by
  obtain ⟨raised, slotEq⟩ := collection.getElem?_link apart asked
  rw [isRenamed, slotEq]
  split
  · rename_i same
    rw [same, isRenamed, Option.map_map]
    rfl
  · split
    · rename_i same
      rw [same, isRenamed, Option.map_map]
      rfl
    · rfl

/-- The child leads to its new parent, and everything else where it led before. -/
theorem leads_link
    {root child : Nat}
    (apart : root ≠ child)
    (isRoot : collection.parent root = root)
    (childIsRoot : collection.parent child = child)
    (inRange : child < collection.slots.size)
    {steps id last : Nat}
    (leads : collection.Leads steps id last) :
    ∃ more, (collection.link root child).Leads more id (if last = child then root else last) := by
  have parentLink := parent_link apart inRange
  induction leads with
  | @root id idIsRoot =>
      by_cases same : id = child
      · subst same
        have linked : (collection.link root id).parent id = root := by
          rw [parentLink, if_pos rfl]
        have linkedRoot : (collection.link root id).parent root = root := by
          rw [parentLink, if_neg apart, isRoot]
        refine ⟨1, .step (by rwa [linked]) ?_⟩
        rw [linked, if_pos rfl]
        exact .root linkedRoot
      · refine ⟨0, ?_⟩
        rw [if_neg same]
        exact .root (by rw [parentLink, if_neg same, idIsRoot])
  | @step id steps last isChild _ inductionHypothesis =>
      obtain ⟨more, rest⟩ := inductionHypothesis
      have same : id ≠ child := by
        rintro rfl
        exact isChild childIsRoot
      have linked : (collection.link root child).parent id = collection.parent id := by
        rw [parentLink, if_neg same]
      exact ⟨more + 1, .step (by rwa [linked]) (by rwa [linked])⟩

/-- Roots after a link. -/
theorem Rooted.link
    (rooted : collection.Rooted)
    {root child : Nat}
    (apart : root ≠ child)
    (isRoot : collection.parent root = root)
    (childIsRoot : collection.parent child = child)
    (inRange : child < collection.slots.size) :
    (collection.link root child).Rooted ∧
      (∀ id, (collection.link root child).root id =
        if collection.root id = child then root else collection.root id) ∧
      ∀ network, (collection.link root child).home network =
        (collection.home network).map fun home => if home = child then root else home := by
  have leads := @leads_link collection root child apart isRoot childIsRoot inRange
  have rootEq (id : Nat) : (collection.link root child).root id =
      if collection.root id = child then root else collection.root id := by
    obtain ⟨steps, before⟩ := rooted.leads_root id
    obtain ⟨more, after⟩ := leads before
    exact after.root_eq
  refine ⟨?_, rootEq, ?_⟩
  · intro id
    obtain ⟨steps, last, before⟩ := rooted id
    obtain ⟨more, after⟩ := leads before
    exact ⟨more, _, after⟩
  · intro network
    rw [home, home, Option.map_map]
    congr 1
    funext owner
    exact rootEq owner

/-- Two groups of a collection become one, and everything else stays. -/
structure Fused (collection other : Collection) (first second root : Nat) : Prop where
  wellformed : other.Wellformed
  size_eq : other.slots.size = collection.slots.size
  first_root : collection.root first = first
  second_root : collection.root second = second
  isEither : root = first ∨ root = second
  root_eq : ∀ id, other.root id =
    if collection.root id = first ∨ collection.root id = second then root
    else collection.root id
  home_eq : ∀ network, other.home network = (collection.home network).map fun home =>
    if home = first ∨ home = second then root else home
  hasPoint_iff : ∀ id point, other.HasPoint id point ↔
    if collection.root id = first ∨ collection.root id = second then
      collection.HasPoint first point ∨ collection.HasPoint second point
    else collection.HasPoint id point

/-- Two groups are the same in either order. -/
theorem Fused.symm
    {other : Collection}
    {first second root : Nat}
    (fused : Fused collection other first second root) :
    Fused collection other second first root where
  wellformed := fused.wellformed
  size_eq := fused.size_eq
  first_root := fused.second_root
  second_root := fused.first_root
  isEither := fused.isEither.symm
  root_eq := by
    intro id
    rw [fused.root_eq]
    simp only [or_comm]
  home_eq := by
    intro network
    rw [fused.home_eq]
    simp only [or_comm]
  hasPoint_iff := by
    intro id point
    rw [fused.hasPoint_iff]
    simp only [or_comm]

theorem Wellformed.fused_link
    (wellformed : collection.Wellformed)
    {root child : Nat}
    (apart : root ≠ child)
    (rootIsRoot : collection.parent root = root)
    (childIsRoot : collection.parent child = child)
    (rootInRange : root < collection.slots.size)
    (childInRange : child < collection.slots.size) :
    Fused collection (collection.link root child) root child root := by
  obtain ⟨rooted, rootEq, homeEq⟩ :=
    wellformed.rooted.link apart rootIsRoot childIsRoot childInRange
  have groupEq := @groupAt_link collection root child apart rootInRange
  have rootRoot := root_of_isRoot rootIsRoot
  have rootChild := root_of_isRoot childIsRoot
  have either (id : Nat) : (if id = root ∨ id = child then root else id) =
      if id = child then root else id := by
    by_cases isRoot : id = root
    · simp [isRoot]
    · simp [isRoot]
  refine ⟨⟨rooted, ?_, ?_, ?_, ?_⟩, size_link .., rootRoot, rootChild, .inl rfl, ?_, ?_, ?_⟩
  · intro id inRange
    rw [size_link] at inRange ⊢
    rw [parent_link apart childInRange]
    split
    · exact rootInRange
    · exact wellformed.parent_lt id inRange
  · intro network owner owned
    rw [size_link]
    exact wellformed.owner_lt network owner owned
  · intro id isRoot network
    rw [parent_link apart childInRange] at isRoot
    have notChild : id ≠ child := by
      rintro rfl
      rw [if_pos rfl] at isRoot
      exact apart isRoot
    rw [if_neg notChild] at isRoot
    have members := wellformed.mem_networks_iff
    rw [groupEq, if_neg notChild, homeEq, Option.map_eq_some_iff]
    split
    · rename_i same
      subst same
      rw [Group.mem_networks_absorb, members id isRoot, members child childIsRoot]
      grind
    · rename_i notRoot
      rw [members id isRoot]
      grind
  · intro id
    rw [isRenamed_link apart]
    exact wellformed.live id
  · intro id
    rw [rootEq, either]
  · intro network
    rw [homeEq]
    simp only [either]
  · intro id point
    simp only [HasPoint, rootEq, rootRoot, rootChild, groupEq]
    by_cases isChild : collection.root id = child
    · simp [isChild, apart, Group.mem_points_absorb]
    · by_cases isRoot : collection.root id = root
      · simp [isRoot, apart, Group.mem_points_absorb]
      · simp [isChild, isRoot]

theorem Fused.of_sameForest
    {between other : Collection}
    (same : SameForest collection between)
    (rooted : collection.Rooted)
    {first second root : Nat}
    (fused : Fused between other first second root) :
    Fused collection other first second root where
  wellformed := fused.wellformed
  size_eq := fused.size_eq.trans same.size_eq
  first_root := (same.root_eq rooted first).symm.trans fused.first_root
  second_root := (same.root_eq rooted second).symm.trans fused.second_root
  isEither := fused.isEither
  root_eq := by
    intro id
    rw [fused.root_eq, same.root_eq rooted]
  home_eq := by
    intro network
    rw [fused.home_eq, same.home_eq rooted]
  hasPoint_iff := by
    intro id point
    rw [fused.hasPoint_iff, same.root_eq rooted, same.hasPoint_iff rooted,
      same.hasPoint_iff rooted, same.hasPoint_iff rooted]

theorem SameForest.fused
    {other : Collection}
    (same : SameForest collection other)
    (wellformed : collection.Wellformed)
    {root : Nat}
    (isRoot : collection.parent root = root) :
    Fused collection other root root root where
  wellformed := same.wellformed wellformed
  size_eq := same.size_eq
  first_root := root_of_isRoot isRoot
  second_root := root_of_isRoot isRoot
  isEither := .inl rfl
  root_eq := by
    intro id
    rw [same.root_eq wellformed.rooted]
    split
    · rename_i atRoot
      exact atRoot.elim (fun found => found) fun found => found
    · rfl
  home_eq := by
    intro network
    rw [same.home_eq wellformed.rooted]
    cases collection.home network with
    | none => rfl
    | some home => grind
  hasPoint_iff := by
    intro id point
    rw [same.hasPoint_iff wellformed.rooted]
    simp only [or_self]
    split
    · rename_i atRoot
      rw [HasPoint, HasPoint, atRoot, root_of_isRoot isRoot]
    · rfl

/-- Merging finds both roots. If they differ, it makes one of them a child of the other. -/
theorem Rooted.merge_cases
    (rooted : collection.Rooted)
    (first second : Nat) :
    ∃ found, SameForest collection found ∧
      (collection.root first = collection.root second ∧
          collection.merge first second = (collection.root first, found) ∨
        collection.root first ≠ collection.root second ∧
          (collection.merge first second =
              (collection.root first,
                found.link (collection.root first) (collection.root second)) ∨
            collection.merge first second =
              (collection.root second,
                found.link (collection.root second) (collection.root first)))) := by
  obtain ⟨between, firstFound, firstSame⟩ := rooted.find_eq first
  obtain ⟨found, secondFound, secondSame⟩ := (firstSame.rooted rooted).find_eq second
  rw [firstSame.root_eq rooted] at secondFound
  refine ⟨found, firstSame.trans secondSame, ?_⟩
  rw [merge]
  simp only [firstFound, secondFound]
  split
  · rename_i already
    exact .inl ⟨already, rfl⟩
  · rename_i apart
    split
    · exact .inr ⟨apart, .inr rfl⟩
    · exact .inr ⟨apart, .inl rfl⟩

/-- Merging makes one group of two. -/
theorem Wellformed.merge_eq
    (wellformed : collection.Wellformed)
    {first second : Nat}
    (firstInRange : first < collection.slots.size)
    (secondInRange : second < collection.slots.size) :
    ∃ root other,
      collection.merge first second = (root, other) ∧
        Fused collection other (collection.root first) (collection.root second) root := by
  obtain ⟨found, same, merged⟩ := wellformed.rooted.merge_cases first second
  have foundWellformed := same.wellformed wellformed
  have isRoot (id : Nat) : found.parent (collection.root id) = collection.root id := by
    rw [← same.root_eq wellformed.rooted]
    exact foundWellformed.rooted.parent_root id
  have firstRootInRange : collection.root first < found.slots.size :=
    same.size_eq ▸ wellformed.root_lt firstInRange
  have secondRootInRange : collection.root second < found.slots.size :=
    same.size_eq ▸ wellformed.root_lt secondInRange
  rcases merged with ⟨already, merged⟩ | ⟨apart, merged | merged⟩
  · rw [← already]
    exact ⟨_, _, merged, same.fused wellformed (wellformed.rooted.parent_root first)⟩
  · refine ⟨_, _, merged, Fused.of_sameForest same wellformed.rooted ?_⟩
    exact foundWellformed.fused_link apart (isRoot first) (isRoot second)
      firstRootInRange secondRootInRange
  · refine ⟨_, _, merged, Fused.of_sameForest same wellformed.rooted (Fused.symm ?_)⟩
    exact foundWellformed.fused_link apart.symm (isRoot second) (isRoot first)
      secondRootInRange firstRootInRange

/-! ## Adding -/

theorem newGroup_eq
    (collection : Collection)
    (id : Nat) :
    collection.newGroup.2.parent id = collection.parent id ∧
      collection.newGroup.2.groupAt id = collection.groupAt id ∧
      collection.newGroup.2.isRenamed id = collection.isRenamed id := by
  simp only [newGroup, parent, groupAt, isRenamed, Array.getElem?_push]
  split
  · rename_i same
    subst same
    simp
  · exact ⟨rfl, rfl, rfl⟩

theorem Leads.of_parent_eq
    {other : Collection}
    (parentEq : ∀ id, other.parent id = collection.parent id)
    {steps id root : Nat}
    (leads : collection.Leads steps id root) :
    other.Leads steps id root := by
  induction leads with
  | root isRoot =>
      exact .root ((parentEq _).trans isRoot)
  | step isChild _ inductionHypothesis =>
      exact .step (by rwa [parentEq]) (by rwa [parentEq])

theorem Rooted.of_parent_eq
    {other : Collection}
    (parentEq : ∀ id, other.parent id = collection.parent id)
    (rooted : collection.Rooted) :
    other.Rooted ∧ ∀ id, other.root id = collection.root id := by
  constructor
  · intro id
    obtain ⟨steps, root, leads⟩ := rooted id
    exact ⟨steps, root, leads.of_parent_eq parentEq⟩
  · intro id
    obtain ⟨steps, leads⟩ := rooted.leads_root id
    exact (leads.of_parent_eq parentEq).root_eq

/-- A new group is empty, and everything else stays. -/
theorem Wellformed.newGroup
    (wellformed : collection.Wellformed) :
    collection.newGroup.2.Wellformed ∧
      collection.newGroup.2.slots.size = collection.slots.size + 1 ∧
      (∀ id, collection.newGroup.2.root id = collection.root id) ∧
      (∀ network, collection.newGroup.2.home network = collection.home network) ∧
      ∀ id point, collection.newGroup.2.HasPoint id point ↔ collection.HasPoint id point := by
  have parentEq (id : Nat) := (collection.newGroup_eq id).1
  have groupEq (id : Nat) := (collection.newGroup_eq id).2.1
  obtain ⟨rooted, rootEq⟩ := wellformed.rooted.of_parent_eq parentEq
  have homeEq (network : Nat) :
      collection.newGroup.2.home network = collection.home network := by
    rw [home, home]
    congr 1
    funext owner
    exact rootEq owner
  have sizeEq : collection.newGroup.2.slots.size = collection.slots.size + 1 := by
    simp [Collection.newGroup]
  refine ⟨⟨rooted, ?_, ?_, ?_, ?_⟩, sizeEq, rootEq, homeEq, ?_⟩
  · intro id inRange
    rw [sizeEq] at inRange ⊢
    rw [parentEq]
    by_cases isNew : id = collection.slots.size
    · subst isNew
      simp [parent]
    · have := wellformed.parent_lt id (by omega)
      omega
  · intro network owner owned
    rw [sizeEq]
    exact Nat.lt_succ_of_lt (wellformed.owner_lt network owner owned)
  · intro id isRoot network
    rw [parentEq] at isRoot
    rw [groupEq, homeEq]
    exact wellformed.mem_networks_iff id isRoot network
  · intro id
    rw [(collection.newGroup_eq id).2.2]
    exact wellformed.live id
  · intro id point
    rw [HasPoint, HasPoint, rootEq, groupEq]

/-- Change the group at a slot, and the owners of networks with it. -/
def regroup
    (collection : Collection)
    (id : Nat)
    (change : Group → Group)
    (owners : List (Nat × Nat)) :
    Collection :=
  { collection.modifySlot id fun slot => { slot with group := change slot.group } with
    owners := owners }

/-- A collection after a change of the group at a root. -/
structure Regrouped
    (collection other : Collection)
    (id : Nat)
    (change : Group → Group) :
    Prop where
  wellformed : other.Wellformed
  size_eq : other.slots.size = collection.slots.size
  root_eq : ∀ asked, other.root asked = collection.root asked
  groupAt_eq : ∀ asked, other.groupAt asked =
    if asked = id then change (collection.groupAt id) else collection.groupAt asked

theorem regroup_eq
    {id : Nat}
    (inRange : id < collection.slots.size)
    (change : Group → Group)
    (owners : List (Nat × Nat))
    (asked : Nat) :
    (collection.regroup id change owners).parent asked = collection.parent asked ∧
      (collection.regroup id change owners).groupAt asked =
        (if asked = id then change (collection.groupAt id) else collection.groupAt asked) ∧
      (collection.regroup id change owners).isRenamed asked = collection.isRenamed asked := by
  have slotEq := collection.getElem?_modifySlot id
    (fun slot => { slot with group := change slot.group }) asked
  simp only [regroup, parent, groupAt, isRenamed, slotEq]
  split
  · rename_i same
    subst same
    simp [inRange]
  · exact ⟨rfl, rfl, rfl⟩

theorem Wellformed.regroup
    (wellformed : collection.Wellformed)
    {id : Nat}
    (inRange : id < collection.slots.size)
    (change : Group → Group)
    {owners : List (Nat × Nat)}
    (ownersInRange : ∀ network owner, owners.lookup network = some owner →
      owner < collection.slots.size)
    (members : ∀ asked, collection.parent asked = asked → ∀ network,
      network ∈ (if asked = id then change (collection.groupAt id)
        else collection.groupAt asked).networks ↔
        (owners.lookup network).map collection.root = some asked) :
    Regrouped collection (collection.regroup id change owners) id change := by
  have slotEq := regroup_eq inRange change owners
  have sizeEq : (collection.regroup id change owners).slots.size = collection.slots.size :=
    size_modifySlot ..
  obtain ⟨rooted, rootEq⟩ := wellformed.rooted.of_parent_eq fun asked => (slotEq asked).1
  have sameRoots : (collection.regroup id change owners).root = collection.root := funext rootEq
  refine ⟨⟨rooted, ?_, ?_, ?_, ?_⟩, sizeEq, rootEq, fun asked => (slotEq asked).2.1⟩
  · intro asked askedInRange
    rw [sizeEq] at askedInRange ⊢
    rw [(slotEq asked).1]
    exact wellformed.parent_lt asked askedInRange
  · intro network owner owned
    rw [sizeEq]
    exact ownersInRange network owner owned
  · intro asked isRoot network
    rw [(slotEq asked).1] at isRoot
    rw [(slotEq asked).2.1, members asked isRoot, home, sameRoots]
    rfl
  · intro asked
    exact ((slotEq asked).2.2).trans (wellformed.live asked)

theorem Rooted.addPoint_eq
    (rooted : collection.Rooted)
    (id : Nat)
    (point : Option Endpoint) :
    ∃ found, SameForest collection found ∧
      collection.addPoint id point =
        found.regroup (collection.root id) (·.addPoint point) found.owners := by
  obtain ⟨found, foundEq, same⟩ := rooted.find_eq id
  refine ⟨found, same, ?_⟩
  rw [addPoint, foundEq]
  rfl

/-- Adding an endpoint to a group. -/
theorem Wellformed.addPoint_eq
    (wellformed : collection.Wellformed)
    {id : Nat}
    (inRange : id < collection.slots.size)
    (point : Option Endpoint) :
    (collection.addPoint id point).Wellformed ∧
      (collection.addPoint id point).slots.size = collection.slots.size ∧
      (∀ asked, (collection.addPoint id point).root asked = collection.root asked) ∧
      (∀ network, (collection.addPoint id point).home network = collection.home network) ∧
      ∀ asked member, (collection.addPoint id point).HasPoint asked member ↔
        collection.HasPoint asked member ∨
          collection.root asked = collection.root id ∧ member = point := by
  obtain ⟨found, same, added⟩ := wellformed.rooted.addPoint_eq id point
  have foundWellformed := same.wellformed wellformed
  have rootInRange : collection.root id < found.slots.size :=
    same.size_eq ▸ wellformed.root_lt inRange
  have regrouped := foundWellformed.regroup rootInRange (·.addPoint point)
    foundWellformed.owner_lt (by
      intro asked isRoot network
      have members := foundWellformed.mem_networks_iff asked isRoot network
      split
      · rename_i atRoot
        rw [Group.networks_addPoint, ← atRoot]
        exact members
      · exact members)
  rw [← added] at regrouped
  have rootEq (asked : Nat) : (collection.addPoint id point).root asked =
      collection.root asked := by
    rw [regrouped.root_eq, same.root_eq wellformed.rooted]
  have owners : (collection.addPoint id point).owners = collection.owners := by
    rw [added, ← same.owners_eq]
    rfl
  refine ⟨regrouped.wellformed, regrouped.size_eq.trans same.size_eq, rootEq, ?_, ?_⟩
  · intro network
    rw [home, home, owners, funext rootEq]
  · intro asked member
    rw [HasPoint, rootEq, regrouped.groupAt_eq, same.groupAt_eq, same.groupAt_eq, HasPoint]
    split
    · rename_i atRoot
      simp [Group.mem_points_addPoint, atRoot]
    · rename_i elsewhere
      simp [elsewhere]

theorem Rooted.addNetwork_of_home
    (rooted : collection.Rooted)
    (id : Nat)
    {network current : Nat}
    (atHome : collection.home network = some current) :
    ∃ found, SameForest collection found ∧
      collection.addNetwork id (some network) = found.merge current id := by
  obtain ⟨found, foundEq, same⟩ := rooted.lookup_eq (some network)
  refine ⟨found, same, ?_⟩
  simp only [addNetwork, foundEq, Option.bind_some, atHome]

theorem Rooted.addNetwork_of_homeless
    (rooted : collection.Rooted)
    (id : Nat)
    {network : Nat}
    (homeless : collection.home network = none) :
    ∃ found, SameForest collection found ∧
      collection.addNetwork id (some network) =
        (collection.root id,
          found.regroup (collection.root id) (·.addNetwork network)
            ((network, collection.root id) :: found.owners)) := by
  obtain ⟨between, betweenEq, betweenSame⟩ := rooted.lookup_eq (some network)
  obtain ⟨found, foundEq, foundSame⟩ := (betweenSame.rooted rooted).find_eq id
  rw [betweenSame.root_eq rooted] at foundEq
  refine ⟨found, betweenSame.trans foundSame, ?_⟩
  simp only [addNetwork, betweenEq, Option.bind_some, homeless, foundEq]
  rfl

/-- Adding a network that belongs to a group merges that group. -/
theorem Wellformed.addNetwork_of_home
    (wellformed : collection.Wellformed)
    {id : Nat}
    (inRange : id < collection.slots.size)
    {network current : Nat}
    (atHome : collection.home network = some current) :
    ∃ root other,
      collection.addNetwork id (some network) = (root, other) ∧
        Fused collection other current (collection.root id) root := by
  obtain ⟨found, same, added⟩ := wellformed.rooted.addNetwork_of_home id atHome
  obtain ⟨root, other, merged, fused⟩ := (same.wellformed wellformed).merge_eq
    (same.size_eq ▸ wellformed.home_lt atHome) (same.size_eq ▸ inRange)
  rw [same.root_eq wellformed.rooted, same.root_eq wellformed.rooted,
    wellformed.rooted.root_home atHome] at fused
  exact ⟨root, other, added.trans merged, fused.of_sameForest same wellformed.rooted⟩

/-- The homes after a network was given an owner. -/
theorem map_root_lookup_cons
    (collection : Collection)
    {root : Nat}
    (isRoot : collection.root root = root)
    (network asked : Nat) :
    (((network, root) :: collection.owners).lookup asked).map collection.root =
      if asked = network then some root else collection.home asked := by
  by_cases isAdded : asked = network
  · simp [isAdded, isRoot]
  · have different : (asked == network) = false := by simp [isAdded]
    simp [List.lookup_cons, different, isAdded, home]

/-- Adding a network that belongs to no group gives it a home. -/
theorem Wellformed.addNetwork_of_homeless
    (wellformed : collection.Wellformed)
    {id : Nat}
    (inRange : id < collection.slots.size)
    {network : Nat}
    (homeless : collection.home network = none) :
    ∃ other,
      collection.addNetwork id (some network) = (collection.root id, other) ∧
        other.Wellformed ∧
        other.slots.size = collection.slots.size ∧
        (∀ asked, other.root asked = collection.root asked) ∧
        (∀ asked, other.home asked =
          if asked = network then some (collection.root id) else collection.home asked) ∧
        ∀ asked point, other.HasPoint asked point ↔ collection.HasPoint asked point := by
  obtain ⟨found, same, added⟩ := wellformed.rooted.addNetwork_of_homeless id homeless
  have foundWellformed := same.wellformed wellformed
  have rootInRange : collection.root id < found.slots.size :=
    same.size_eq ▸ wellformed.root_lt inRange
  have rootRoot : found.root (collection.root id) = collection.root id := by
    rw [same.root_eq wellformed.rooted, wellformed.rooted.root_root]
  have lookupEq := map_root_lookup_cons found rootRoot network
  have regrouped := @Wellformed.regroup found foundWellformed (collection.root id) rootInRange
    (·.addNetwork network) ((network, collection.root id) :: found.owners) (by
      intro asked owner owned
      rw [List.lookup_cons] at owned
      split at owned
      · cases owned
        exact rootInRange
      · exact foundWellformed.owner_lt asked owner owned) (by
      intro asked isRoot member
      have members := foundWellformed.mem_networks_iff asked isRoot member
      have homelessFound := (same.home_eq wellformed.rooted network).trans homeless
      rw [lookupEq]
      split
      · rename_i atRoot
        rw [Group.mem_networks_addNetwork, ← atRoot, members]
        grind
      · rw [members]
        grind)
  have rootEq (asked : Nat) := (regrouped.root_eq asked).trans (same.root_eq wellformed.rooted asked)
  refine ⟨_, added, regrouped.wellformed, regrouped.size_eq.trans same.size_eq, rootEq, ?_, ?_⟩
  · intro asked
    rw [home, funext regrouped.root_eq, ← same.home_eq wellformed.rooted, ← lookupEq]
    rfl
  · intro asked point
    rw [HasPoint, rootEq, regrouped.groupAt_eq, same.groupAt_eq, same.groupAt_eq, HasPoint]
    split
    · rename_i atRoot
      rw [Group.points_addNetwork, atRoot]
    · rfl

end Collection

end CircuitNetwork
