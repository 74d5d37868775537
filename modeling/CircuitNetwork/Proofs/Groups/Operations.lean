import CircuitNetwork.Proofs.Groups.Partition
import CircuitNetwork.Proofs.Groups.Replacement

namespace CircuitNetwork.Collection

/-!
# Collections whose groups are renamed

Groups are created, merged and renamed in any order, and the identity of a renamed
group may be used again. A network that is found in a group is a member of it. But
merging does not ask whether a group was renamed, so the group that is found need
not be a current one. It is if no networks are brought to renamed groups.
-/

/-- A call on a collection, or the renaming of one of its groups. The members of the group are on a
board, which may have changed since the group got them. -/
inductive Operation where
  | call (made : Call)
  | rename (board : Board) (id : Nat) (new : Signal)

namespace Operation

/-- The identities that an operation is given. -/
def ids : Operation → List Nat
  | call made => made.ids
  | rename _ id _ => [id]

/-- The number of identities that an operation creates. -/
def created : Operation → Nat
  | call made => made.created
  | rename .. => 0

/-- The identities of groups that may get more networks. -/
def joins : Operation → List Nat
  | call (.merge first second) => [first, second]
  | call (.addNetwork id (some _)) => [id]
  | _ => []

/-- Operations that are given only identities that were created before. -/
def InScope : Nat → List Operation → Prop
  | _, [] => True
  | count, operation :: rest =>
      (∀ id ∈ operation.ids, id < count) ∧ InScope (count + operation.created) rest

instance decidableInScope :
    (count : Nat) → (operations : List Operation) → Decidable (InScope count operations)
  | _, [] => isTrue trivial
  | count, operation :: rest =>
      have := decidableInScope (count + operation.created) rest
      inferInstanceAs (Decidable (_ ∧ _))

end Operation

/-- Carry out an operation. Renaming changes the collection whether it succeeds or not. -/
def operate (collection : Collection) : Operation → Collection
  | .call made => (collection.perform made).2
  | .rename board id new =>
      match rename id new (board, collection) with
      | .ok _ (_, later) => later
      | .error _ (_, later) => later

/-- Carry out operations one after another. -/
def operateAll (collection : Collection) (operations : List Operation) : Collection :=
  operations.foldl operate collection

/-- Operations that bring networks only to groups that were not renamed. -/
def Careful : Collection → List Operation → Prop
  | _, [] => True
  | collection, operation :: rest =>
      (∀ id ∈ operation.joins, collection.Live id) ∧ Careful (collection.operate operation) rest

instance decidableLive (collection : Collection) (id : Nat) : Decidable (collection.Live id) :=
  inferInstanceAs (Decidable (_ = _))

instance decidableCareful :
    (collection : Collection) → (operations : List Operation) →
      Decidable (Careful collection operations)
  | _, [] => isTrue trivial
  | collection, operation :: rest =>
      have := decidableCareful (collection.operate operation) rest
      inferInstanceAs (Decidable (_ ∧ _))

variable {collection later : Collection} {joins : List Nat} {signal : Signal}

/-! ## One operation -/

/-- The root of an identity that an operation brings networks to, or of a group with a network. -/
def Reached (collection : Collection) (joins : List Nat) (root : Nat) : Prop :=
  (∃ id ∈ joins, collection.root id = root) ∨ ∃ network, collection.home network = some root

/-- What an operation does, apart from the ways to the roots. -/
inductive Step (collection : Collection) (joins : List Nat) : Collection → Prop where
  | same {later : Collection}
      (same : SameForest collection later) :
      Step collection joins later
  | newGroup :
      Step collection joins collection.newGroup.2
  | link {found : Collection} {root child : Nat}
      (same : SameForest collection found)
      (apart : root ≠ child)
      (rootInRange : root < collection.slots.size)
      (childInRange : child < collection.slots.size)
      (rootIsRoot : collection.root root = root)
      (childIsRoot : collection.root child = child)
      (rootReached : collection.Reached joins root) :
      Step collection joins (found.link root child)
  | addPoint {found : Collection} {id : Nat} {point : Option Endpoint}
      (same : SameForest collection found)
      (inRange : collection.root id < collection.slots.size) :
      Step collection joins (found.regroup (collection.root id) (·.addPoint point) found.owners)
  | addNetwork {found : Collection} {id network : Nat}
      (same : SameForest collection found)
      (inRange : collection.root id < collection.slots.size)
      (isJoined : id ∈ joins) :
      Step collection joins
        (found.regroup (collection.root id) (·.addNetwork network)
          ((network, collection.root id) :: found.owners))
  | retire {later : Collection} {root : Nat}
      (retired : Retired collection later root) :
      Step collection joins later

/-- A collection in which every network that has an owner is in the group of its owner. Groups may
have been renamed, and may list networks that are no longer theirs. -/
structure Sound (collection : Collection) : Prop where
  rooted : collection.Rooted
  root_lt : ∀ id < collection.slots.size, collection.root id < collection.slots.size
  owner_lt : ∀ network id, collection.owners.lookup network = some id →
    id < collection.slots.size
  mem_networks : ∀ network root, collection.home network = some root →
    network ∈ (collection.groupAt root).networks

theorem SameForest.sound
    (same : SameForest collection later)
    (sound : collection.Sound) :
    later.Sound where
  rooted := same.rooted sound.rooted
  root_lt := by
    intro id inRange
    rw [same.size_eq] at inRange ⊢
    rw [same.root_eq sound.rooted]
    exact sound.root_lt id inRange
  owner_lt := by
    intro network id owned
    rw [same.owners_eq] at owned
    rw [same.size_eq]
    exact sound.owner_lt network id owned
  mem_networks := by
    intro network root atHome
    rw [same.home_eq sound.rooted] at atHome
    rw [same.groupAt_eq]
    exact sound.mem_networks network root atHome

namespace Sound

theorem home_lt
    (sound : collection.Sound)
    {network root : Nat}
    (atHome : collection.home network = some root) :
    root < collection.slots.size := by
  obtain ⟨owner, owned, rfl⟩ := Option.map_eq_some_iff.mp atHome
  exact sound.root_lt owner (sound.owner_lt network owner owned)

theorem newGroup
    (sound : collection.Sound) :
    collection.newGroup.2.Sound := by
  obtain ⟨rooted, rootEq⟩ := sound.rooted.of_parent_eq fun id => (collection.newGroup_eq id).1
  have sizeEq : collection.newGroup.2.slots.size = collection.slots.size + 1 := by
    simp [Collection.newGroup]
  refine ⟨rooted, ?_, ?_, ?_⟩
  · intro id inRange
    rw [sizeEq] at inRange ⊢
    rw [rootEq]
    by_cases isNew : id = collection.slots.size
    · subst isNew
      rw [root_of_isRoot (by simp [parent])]
      exact inRange
    · have := sound.root_lt id (by omega)
      omega
  · intro network owner owned
    rw [sizeEq]
    exact Nat.lt_succ_of_lt (sound.owner_lt network owner owned)
  · intro network root atHome
    rw [home, funext rootEq] at atHome
    rw [(collection.newGroup_eq root).2.1]
    exact sound.mem_networks network root atHome

theorem link
    (sound : collection.Sound)
    {root child : Nat}
    (apart : root ≠ child)
    (rootInRange : root < collection.slots.size)
    (childInRange : child < collection.slots.size)
    (rootIsRoot : collection.root root = root)
    (childIsRoot : collection.root child = child) :
    (collection.link root child).Sound := by
  obtain ⟨rooted, rootEq, homeEq⟩ := sound.rooted.link apart
    (sound.rooted.parent_eq_self_iff.mpr rootIsRoot)
    (sound.rooted.parent_eq_self_iff.mpr childIsRoot) childInRange
  refine ⟨rooted, ?_, ?_, ?_⟩
  · intro id inRange
    rw [size_link] at inRange ⊢
    rw [rootEq]
    split
    · exact rootInRange
    · exact sound.root_lt id inRange
  · intro network owner owned
    rw [size_link]
    exact sound.owner_lt network owner owned
  · intro network home atHome
    rw [homeEq] at atHome
    obtain ⟨before, homeBefore, rfl⟩ := Option.map_eq_some_iff.mp atHome
    have member := sound.mem_networks network before homeBefore
    rw [groupAt_link apart rootInRange]
    by_cases isChild : before = child
    · simp only [isChild, if_true, if_neg apart, Group.mem_networks_absorb]
      exact .inr (isChild ▸ member)
    · simp only [if_neg isChild]
      split
      · rename_i isRoot
        exact (Group.mem_networks_absorb ..).mpr (.inl (isRoot ▸ member))
      · exact member

/-- Changing the group at a root, and the owners with it. -/
theorem regroup
    (sound : collection.Sound)
    {id : Nat}
    (inRange : id < collection.slots.size)
    {change : Group → Group}
    {owners : List (Nat × Nat)}
    (ownersInRange : ∀ network owner, owners.lookup network = some owner →
      owner < collection.slots.size)
    (members : ∀ network root, (owners.lookup network).map collection.root = some root →
      network ∈ (if root = id then change (collection.groupAt id)
        else collection.groupAt root).networks) :
    (collection.regroup id change owners).Sound := by
  have slotEq := regroup_eq inRange change owners
  obtain ⟨rooted, rootEq⟩ := sound.rooted.of_parent_eq fun asked => (slotEq asked).1
  have sizeEq : (collection.regroup id change owners).slots.size = collection.slots.size :=
    size_modifySlot ..
  refine ⟨rooted, ?_, ?_, ?_⟩
  · intro asked askedInRange
    rw [sizeEq] at askedInRange ⊢
    rw [rootEq]
    exact sound.root_lt asked askedInRange
  · intro network owner owned
    rw [sizeEq]
    exact ownersInRange network owner owned
  · intro network root atHome
    rw [home, funext rootEq] at atHome
    rw [(slotEq root).2.1]
    exact members network root atHome

theorem retire
    (sound : collection.Sound)
    {root : Nat}
    (retired : Retired collection later root) :
    later.Sound where
  rooted := retired.rooted
  root_lt := by
    intro id inRange
    rw [retired.size_eq] at inRange ⊢
    rw [retired.root_eq]
    exact sound.root_lt id inRange
  owner_lt := by
    intro network owner owned
    rw [retired.owners_eq, Retired.lookup_filter_eq] at owned
    rw [retired.size_eq]
    split at owned
    · cases owned
    · exact sound.owner_lt network owner owned
  mem_networks := by
    intro network home atHome
    rw [retired.home_eq] at atHome
    rw [retired.groupAt_eq]
    split at atHome
    · cases atHome
    · exact sound.mem_networks network home atHome

end Sound

theorem Step.sound
    (step : Step collection joins later)
    (sound : collection.Sound) :
    later.Sound := by
  cases step with
  | same same => exact same.sound sound
  | newGroup => exact sound.newGroup
  | link same apart rootInRange childInRange rootIsRoot childIsRoot _ =>
      exact (same.sound sound).link apart (same.size_eq ▸ rootInRange)
        (same.size_eq ▸ childInRange) (same.root_eq sound.rooted _ ▸ rootIsRoot)
        (same.root_eq sound.rooted _ ▸ childIsRoot)
  | addPoint same inRange =>
      have found := same.sound sound
      refine found.regroup (same.size_eq ▸ inRange) found.owner_lt ?_
      intro network root atHome
      have member := found.mem_networks network root atHome
      split
      · rename_i isRoot
        rw [Group.networks_addPoint, ← isRoot]
        exact member
      · exact member
  | @addNetwork found id network same inRange _ =>
      have foundSound := same.sound sound
      have isRoot : found.root (collection.root id) = collection.root id := by
        rw [same.root_eq sound.rooted, sound.rooted.root_root]
      refine foundSound.regroup (same.size_eq ▸ inRange) ?_ ?_
      · intro asked owner owned
        rw [List.lookup_cons] at owned
        split at owned
        · cases owned
          exact same.size_eq ▸ inRange
        · exact foundSound.owner_lt asked owner owned
      · intro asked root atHome
        rw [map_root_lookup_cons found isRoot] at atHome
        split at atHome
        · rename_i isAdded
          cases atHome
          rw [if_pos rfl]
          exact (Group.mem_networks_addNetwork ..).mpr (.inr isAdded)
        · have member := foundSound.mem_networks asked root atHome
          split
          · rename_i atRoot
            exact (Group.mem_networks_addNetwork ..).mpr (.inl (atRoot ▸ member))
          · exact member
  | retire retired => exact sound.retire retired

/-- No network belongs to a renamed group. -/
def Settled (collection : Collection) : Prop :=
  ∀ network root, collection.home network = some root → collection.isRenamed root = false

theorem Step.settled
    (step : Step collection joins later)
    (sound : collection.Sound)
    (settled : collection.Settled)
    (careful : ∀ id ∈ joins, collection.Live id) :
    later.Settled := by
  intro network home atHome
  cases step with
  | same same =>
      rw [same.home_eq sound.rooted] at atHome
      rw [same.isRenamed_eq]
      exact settled network home atHome
  | newGroup =>
      obtain ⟨-, rootEq⟩ := sound.rooted.of_parent_eq fun id => (collection.newGroup_eq id).1
      rw [Collection.home, funext rootEq] at atHome
      rw [(collection.newGroup_eq home).2.2]
      exact settled network home atHome
  | @link found root child same apart rootInRange childInRange rootIsRoot childIsRoot reached =>
      have foundRooted := same.rooted sound.rooted
      obtain ⟨-, -, homeEq⟩ := foundRooted.link apart
        (foundRooted.parent_eq_self_iff.mpr (same.root_eq sound.rooted _ ▸ rootIsRoot))
        (foundRooted.parent_eq_self_iff.mpr (same.root_eq sound.rooted _ ▸ childIsRoot))
        (same.size_eq ▸ childInRange)
      rw [homeEq, same.home_eq sound.rooted] at atHome
      obtain ⟨before, homeBefore, rfl⟩ := Option.map_eq_some_iff.mp atHome
      rw [isRenamed_link apart, same.isRenamed_eq]
      split
      · rcases reached with ⟨id, isJoined, rfl⟩ | ⟨other, otherHome⟩
        · exact careful id isJoined
        · exact settled other root otherHome
      · exact settled network before homeBefore
  | @addPoint found id point same inRange =>
      have slotEq := regroup_eq (same.size_eq ▸ inRange) (·.addPoint point) found.owners
      obtain ⟨-, rootEq⟩ :=
        (same.rooted sound.rooted).of_parent_eq fun asked => (slotEq asked).1
      rw [Collection.home, funext rootEq] at atHome
      rw [(slotEq home).2.2, same.isRenamed_eq]
      exact settled network home (same.home_eq sound.rooted network ▸ atHome)
  | @addNetwork found id added same inRange isJoined =>
      have slotEq := regroup_eq (same.size_eq ▸ inRange) (·.addNetwork added)
        ((added, collection.root id) :: found.owners)
      obtain ⟨-, rootEq⟩ :=
        (same.rooted sound.rooted).of_parent_eq fun asked => (slotEq asked).1
      have isRoot : found.root (collection.root id) = collection.root id := by
        rw [same.root_eq sound.rooted, sound.rooted.root_root]
      rw [Collection.home, funext rootEq] at atHome
      replace atHome := (map_root_lookup_cons found isRoot added network).symm.trans atHome
      rw [(slotEq home).2.2, same.isRenamed_eq]
      split at atHome
      · cases atHome
        exact careful id isJoined
      · exact settled network home (same.home_eq sound.rooted network ▸ atHome)
  | @retire _ root retired =>
      rw [retired.home_eq] at atHome
      split at atHome
      · cases atHome
      · rename_i elsewhere
        have notRoot : home ≠ root := by
          rintro rfl
          exact elsewhere (sound.mem_networks network home atHome)
        rw [retired.isRenamed_eq, if_neg (fun isRoot => notRoot isRoot.1)]
        exact settled network home atHome

/-! ## All operations are steps -/

theorem Sound.step_merge
    (sound : collection.Sound)
    {between : Collection}
    (same : SameForest collection between)
    {first second : Nat}
    (firstInRange : first < collection.slots.size)
    (secondInRange : second < collection.slots.size)
    (firstReached : collection.Reached joins (collection.root first))
    (secondReached : collection.Reached joins (collection.root second)) :
    Step collection joins (between.merge first second).2 ∧
      (between.merge first second).2.slots.size = collection.slots.size := by
  have rooted := sound.rooted
  obtain ⟨found, foundSame, merged⟩ := (same.rooted rooted).merge_cases first second
  have total := same.trans foundSame
  simp only [same.root_eq rooted] at merged
  have firstLt := sound.root_lt first firstInRange
  have secondLt := sound.root_lt second secondInRange
  rcases merged with ⟨-, merged⟩ | ⟨apart, merged | merged⟩
  · rw [merged]
    exact ⟨.same total, total.size_eq⟩
  · rw [merged]
    exact ⟨.link total apart firstLt secondLt (rooted.root_root first) (rooted.root_root second)
      firstReached, (size_link ..).trans total.size_eq⟩
  · rw [merged]
    exact ⟨.link total apart.symm secondLt firstLt (rooted.root_root second)
      (rooted.root_root first) secondReached, (size_link ..).trans total.size_eq⟩

theorem Sound.step_addNetwork
    (sound : collection.Sound)
    {id network : Nat}
    (inRange : id < collection.slots.size)
    (isJoined : id ∈ joins) :
    Step collection joins (collection.addNetwork id (some network)).2 ∧
      (collection.addNetwork id (some network)).2.slots.size = collection.slots.size := by
  cases atHome : collection.home network with
  | some current =>
      obtain ⟨found, same, added⟩ := sound.rooted.addNetwork_of_home id atHome
      rw [added]
      exact sound.step_merge same (sound.home_lt atHome) inRange
        (.inr ⟨network, atHome.trans (congrArg some (sound.rooted.root_home atHome).symm)⟩)
        (.inl ⟨id, isJoined, rfl⟩)
  | none =>
      obtain ⟨found, same, added⟩ := sound.rooted.addNetwork_of_homeless id atHome
      rw [added]
      exact ⟨.addNetwork same (sound.root_lt id inRange) isJoined,
        (size_modifySlot ..).trans same.size_eq⟩

theorem operate_rename_cases
    (rooted : collection.Rooted)
    (neat : collection.Neat signal)
    (board : Board)
    (id : Nat)
    (new : Signal) :
    SameForest collection (collection.operate (.rename board id new)) ∨
      Retired collection (collection.operate (.rename board id new)) (collection.root id) := by
  have ensured := ensures_rename rooted neat board id new
  rw [operate]
  generalize rename id new (board, collection) = result at ensured ⊢
  cases result with
  | ok _ final => exact .inr ensured.retired
  | error _ final =>
      rcases ensured with ⟨-, same⟩ | withdrawn
      · exact .inl same
      · exact .inr withdrawn.retired

theorem Sound.step_operate
    (sound : collection.Sound)
    (neat : collection.Neat signal)
    {operation : Operation}
    (inScope : ∀ id ∈ operation.ids, id < collection.slots.size) :
    Step collection operation.joins (collection.operate operation) ∧
      (collection.operate operation).slots.size = collection.slots.size + operation.created := by
  have rooted := sound.rooted
  cases operation with
  | rename board id new =>
      rcases operate_rename_cases rooted neat board id new with same | retired
      · exact ⟨.same same, same.size_eq⟩
      · exact ⟨.retire retired, retired.size_eq⟩
  | call made =>
      cases made with
      | newGroup =>
          exact ⟨.newGroup, by simp [operate, perform, Collection.newGroup, Operation.created,
            Call.created]⟩
      | find id =>
          obtain ⟨found, foundEq, same⟩ := rooted.find_eq id
          simp only [operate, perform, foundEq]
          exact ⟨.same same, same.size_eq⟩
      | group id =>
          obtain ⟨found, foundEq, same⟩ := rooted.find_eq id
          simp only [operate, perform, Collection.group, foundEq]
          exact ⟨.same same, same.size_eq⟩
      | lookup network =>
          obtain ⟨found, foundEq, same⟩ := rooted.lookup_eq network
          simp only [operate, perform, foundEq]
          exact ⟨.same same, same.size_eq⟩
      | groups => exact ⟨.same (.refl collection), rfl⟩
      | addPoint id point =>
          obtain ⟨found, same, added⟩ := rooted.addPoint_eq id point
          simp only [operate, perform, added]
          exact ⟨.addPoint same (sound.root_lt id (inScope id (by simp [Operation.ids, Call.ids]))),
            (size_modifySlot ..).trans same.size_eq⟩
      | merge first second =>
          exact sound.step_merge (.refl collection)
            (inScope first (by simp [Operation.ids, Call.ids]))
            (inScope second (by simp [Operation.ids, Call.ids]))
            (.inl ⟨first, by simp [Operation.joins], rfl⟩)
            (.inl ⟨second, by simp [Operation.joins], rfl⟩)
      | addNetwork id network =>
          cases network with
          | none =>
              obtain ⟨found, foundEq, same⟩ := rooted.find_eq id
              simp only [operate, perform, Collection.addNetwork, foundEq]
              exact ⟨.same same, same.size_eq⟩
          | some network =>
              exact sound.step_addNetwork (inScope id (by simp [Operation.ids, Call.ids]))
                (by simp [Operation.joins])

theorem Step.neat
    (step : Step collection joins later)
    (neat : collection.Neat signal) :
    later.Neat signal := by
  cases step with
  | same same => exact neat.of_sameForest same
  | newGroup => exact neat.newGroup
  | link same _ _ _ _ _ _ => exact (neat.of_sameForest same).link _ _
  | addPoint same _ =>
      exact (neat.of_sameForest same).regroup (fun _ orderly => orderly.addPoint _) _
  | addNetwork same _ _ =>
      exact (neat.of_sameForest same).regroup (fun _ orderly => orderly.addNetwork _) _
  | retire retired => exact retired.neat signal neat

/-! ## Many operations -/

theorem sound_empty
    (signal : Signal) :
    Sound { signal := signal } where
  rooted := fun id => ⟨0, id, .root rfl⟩
  root_lt := fun id inRange => absurd inRange (Nat.not_lt_zero id)
  owner_lt := by
    intro network id owned
    cases owned
  mem_networks := by
    intro network root atHome
    cases atHome

theorem neat_empty
    (signal : Signal) :
    Neat signal { signal := signal } :=
  ⟨rfl, fun id slot found => by simp at found⟩

theorem Sound.operateAll
    (sound : collection.Sound)
    (neat : collection.Neat signal)
    {operations : List Operation}
    (inScope : Operation.InScope collection.slots.size operations) :
    (collection.operateAll operations).Sound ∧ (collection.operateAll operations).Neat signal := by
  induction operations generalizing collection with
  | nil => exact ⟨sound, neat⟩
  | cons operation rest inductionHypothesis =>
      obtain ⟨here, onward⟩ := inScope
      obtain ⟨step, sizeEq⟩ := sound.step_operate neat here
      exact inductionHypothesis (step.sound sound) (step.neat neat) (sizeEq ▸ onward)

theorem Settled.operateAll
    (settled : collection.Settled)
    (sound : collection.Sound)
    (neat : collection.Neat signal)
    {operations : List Operation}
    (inScope : Operation.InScope collection.slots.size operations)
    (careful : Careful collection operations) :
    (collection.operateAll operations).Settled := by
  induction operations generalizing collection with
  | nil => exact settled
  | cons operation rest inductionHypothesis =>
      obtain ⟨here, onward⟩ := inScope
      obtain ⟨isCareful, restCareful⟩ := careful
      obtain ⟨step, sizeEq⟩ := sound.step_operate neat here
      exact inductionHypothesis (step.settled sound settled isCareful) (step.sound sound)
        (step.neat neat) (sizeEq ▸ onward) restCareful

/-- A root is the identity of a current group unless the group was renamed. -/
theorem Rooted.groupAt_mem_groups_iff
    (rooted : collection.Rooted)
    (neat : collection.Neat signal)
    {root : Nat}
    (inRange : root < collection.slots.size)
    (isRoot : collection.root root = root) :
    collection.groupAt root ∈ collection.groups ↔ collection.isRenamed root = false := by
  rw [groups_eq, rooted.roots_eq, List.mem_map]
  constructor
  · rintro ⟨id, isCurrent, sameGroup⟩
    have sameId : id = root := by
      rw [← (neat.groupAt id).id_eq, sameGroup, (neat.groupAt root).id_eq]
    subst sameId
    simpa [inRange, isRoot] using isCurrent
  · intro live
    exact ⟨root, by simp [inRange, isRoot, live], rfl⟩

/-- After any operations, a network that is found in a group is a member of this group. The group is a
current one unless it was renamed, and always if networks were brought only to groups that were not
renamed. -/
theorem lookup_mem_networks
    {signal : Signal}
    {operations : List Operation}
    (inScope : Operation.InScope 0 operations)
    {collection : Collection}
    (reached : operateAll { signal := signal } operations = collection)
    {network id : Nat}
    (found : (collection.lookup (some network)).1 = some id) :
    ∃ group,
      (collection.group id).1 = group ∧ group.id = id ∧ network ∈ group.networks ∧
        (group ∈ collection.groups ↔ collection.isRenamed id = false) ∧
        (Careful { signal := signal } operations → group ∈ collection.groups) := by
  obtain ⟨sound, neat⟩ := (sound_empty signal).operateAll (neat_empty signal) inScope
  have settled : Careful { signal := signal } operations →
      (operateAll { signal := signal } operations).Settled := by
    refine Settled.operateAll ?_ (sound_empty signal) (neat_empty signal) inScope
    intro network root atHome
    cases atHome
  rw [reached] at sound neat settled
  rw [sound.rooted.lookup_fst_eq, Option.bind_some] at found
  have isRoot := sound.rooted.root_home found
  have current := sound.rooted.groupAt_mem_groups_iff neat (sound.home_lt found) isRoot
  refine ⟨collection.groupAt id, ?_, (neat.groupAt id).id_eq, sound.mem_networks network id found,
    current, ?_⟩
  · rw [sound.rooted.group_eq, isRoot]
  · intro careful
    exact current.mpr (settled careful network id found)

/-- A network is added to a new group after its first one was renamed, and that group is merged. -/
theorem lookup_mem_networks_again :
    let operations : List Operation := [.call .newGroup, .call (.addNetwork 0 (some 7)),
      .rename {} 0 .control, .call .newGroup, .call .newGroup, .call (.addNetwork 1 (some 7)),
      .call (.merge 2 1)]
    Operation.InScope 0 operations ∧
      ((operateAll { signal := .value } operations).lookup (some 7)).1 = some 1 ∧
      ∃ group ∈ (operateAll { signal := .value } operations).groups,
        group.id = 1 ∧ 7 ∈ group.networks := by
  intro operations
  have inScope : Operation.InScope 0 operations := by decide
  have found : ((operateAll { signal := .value } operations).lookup (some 7)).1 = some 1 := by
    decide +kernel
  obtain ⟨group, -, idEq, member, -, current⟩ :=
    lookup_mem_networks inScope rfl found
  exact ⟨inScope, found, group, current (by decide +kernel), idEq, member⟩

/-- A group that is merged with a renamed one is found by its network, and is no current group. -/
theorem lookup_finds_renamed_group :
    let operations : List Operation := [.call .newGroup, .call .newGroup,
      .call (.addNetwork 1 (some 7)), .rename {} 0 .control, .call (.merge 0 1)]
    Operation.InScope 0 operations ∧
      ((operateAll { signal := .value } operations).lookup (some 7)).1 = some 0 ∧
      (operateAll { signal := .value } operations).groups = [] := by
  decide +kernel

/-! ## Renaming that fails -/

/-- After any operations, renaming succeeds if the group is a current one and all its endpoints use the
signal. If the group is no current one, nothing changes. Otherwise the networks, and the endpoints
before the first that does not use the signal, stay renamed, and the group is gone. -/
theorem failed_rename_leaves
    {signal : Signal}
    {operations : List Operation}
    (inScope : Operation.InScope 0 operations)
    {collection : Collection}
    (reached : operateAll { signal := signal } operations = collection)
    {id : Nat}
    (created : id < collection.slots.size)
    {group : Group}
    (isGroup : (collection.group id).1 = group)
    {board : Board}
    (ports : ∀ member, some member ∈ group.points → board.HasPort member)
    (new : Signal) :
    ((∃ final, rename id new (board, collection) = .ok () final) ↔
        group ∈ collection.groups ∧ ∀ point ∈ group.points, board.Takes signal point) ∧
      ∀ failure other later, rename id new (board, collection) = .error failure (other, later) →
        (group ∉ collection.groups ∧ other = board ∧ later.groups = collection.groups ∧
            ∀ network, (later.lookup network).1 = (collection.lookup network).1) ∨
          (group ∈ collection.groups ∧
            later.groups = collection.groups.filter (·.id ≠ group.id) ∧
            (∀ network, (later.lookup (some network)).1 =
              if network ∈ group.networks then none
              else (collection.lookup (some network)).1) ∧
            ∃ taken refusing rest, group.points = taken ++ refusing :: rest ∧
              (∀ point ∈ taken, board.Takes signal point) ∧ ¬board.Takes signal refusing ∧
              board.Replaced other signal new group.networks (taken ++ [refusing]) taken) := by
  obtain ⟨sound, neat⟩ := (sound_empty signal).operateAll (neat_empty signal) inScope
  rw [reached] at sound neat
  obtain ⟨rfl⟩ := neat.signal_eq
  have rooted := sound.rooted
  rw [rooted.group_eq] at isGroup
  subst isGroup
  have current := rooted.groupAt_mem_groups_iff neat (sound.root_lt id created)
    (rooted.root_root id)
  have outcome := renaming_rename rooted neat id ports new
  rw [(neat.groupAt _).id_eq]
  generalize rename id new (board, collection) = result at outcome
  cases outcome with
  | refused isRenamed same =>
      have notCurrent : collection.groupAt (collection.root id) ∉ collection.groups := by
        rw [current, isRenamed]
        exact Bool.noConfusion
      refine ⟨by simp [notCurrent], ?_⟩
      rintro _ _ _ ⟨⟩
      refine .inl ⟨notCurrent, rfl,
        (same.alike rooted).groups_eq rooted (same.rooted rooted), ?_⟩
      intro network
      rw [(same.rooted rooted).lookup_fst_eq, rooted.lookup_fst_eq,
        funext (same.home_eq rooted)]
  | complete live takes replaced retired =>
      exact ⟨⟨fun _ => ⟨current.mpr live, takes⟩, fun _ => ⟨_, rfl⟩⟩, by simp⟩
  | broken live members takes refuses replaced retired =>
      refine ⟨⟨by simp, fun all => absurd (all.2 _ (by simp [members])) refuses⟩, ?_⟩
      rintro _ _ _ ⟨⟩
      exact .inr ⟨current.mpr live, retired.groups_eq rooted neat, retired.lookup_eq rooted,
        _, _, _, members, takes, refuses, replaced⟩

/-- A constant on the first signal, and a decider on its network that reads the second one. -/
def unheard : Board :=
  let board := ({} : Board).add
    (.ofFilters [{ signal := .virtual "signal-A", count := 3, index := 1 }])
  let board := board.add (.decider
    { first := .value, second := .constant 0, comparator := .greater, output := .control,
      copyCount := false })
  board.wire .red [⟨0, .one⟩, ⟨1, .one⟩]

/-- The constant and the decider of the board, as one group of the signal of the constant. -/
def unheardGroup : List Operation :=
  [.call .newGroup, .call (.addNetwork 0 (some 0)), .call (.addPoint 0 (some ⟨0, .one⟩)),
    .call (.addPoint 0 (some ⟨1, .one⟩))]

/-- The decider does not read the signal of the group. The constant is renamed all the same. -/
theorem failed_rename_leaves_unheard :
    ∃ failure other later,
      rename 0 (.virtual "signal-B")
          (unheard, operateAll { signal := .virtual "signal-A" } unheardGroup) =
          .error failure (other, later) ∧
        later.groups = [] ∧
        unheard.Replaced other (.virtual "signal-A") (.virtual "signal-B") [0]
          [some ⟨0, .one⟩, some ⟨1, .one⟩] [some ⟨0, .one⟩] := by
  have inScope : Operation.InScope 0 unheardGroup := by decide
  have isGroup : ((operateAll { signal := .virtual "signal-A" } unheardGroup).group 0).1 =
      ⟨0, [some ⟨0, .one⟩, some ⟨1, .one⟩], [0]⟩ := by
    decide +kernel
  have isCurrent : (operateAll { signal := .virtual "signal-A" } unheardGroup).groups =
      [⟨0, [some ⟨0, .one⟩, some ⟨1, .one⟩], [0]⟩] := by
    decide +kernel
  have ports : ∀ member, some member ∈ [some (⟨0, .one⟩ : Endpoint), some ⟨1, .one⟩] →
      unheard.HasPort member := by
    simp only [List.mem_cons, List.not_mem_nil, or_false, Option.some.injEq, forall_eq_or_imp,
      forall_eq]
    decide +kernel
  obtain ⟨succeeds_iff, fails⟩ := failed_rename_leaves inScope rfl (by decide +kernel) isGroup ports
    (.virtual "signal-B")
  have takes : unheard.Takes (.virtual "signal-A") (some ⟨0, .one⟩) := by decide +kernel
  have refuses : ¬unheard.Takes (.virtual "signal-A") (some ⟨1, .one⟩) := by decide +kernel
  cases result : rename 0 (.virtual "signal-B")
      (unheard, operateAll { signal := .virtual "signal-A" } unheardGroup) with
  | ok _ final =>
      exact absurd ((succeeds_iff.mp ⟨final, result⟩).2 (some ⟨1, .one⟩) (by simp)) refuses
  | error failure final =>
      refine ⟨failure, final.1, final.2, rfl, ?_⟩
      rw [isCurrent] at fails
      rcases fails failure final.1 final.2 result with
        ⟨notCurrent, -⟩ | ⟨-, groupsEq, -, taken, refusing, rest, members, -, refused, replaced⟩
      · exact absurd (List.mem_singleton_self _) notCurrent
      · refine ⟨groupsEq.trans (by decide), ?_⟩
        match taken, members with
        | [], members =>
            cases members
            exact absurd takes refused
        | [_], members =>
            cases members
            exact replaced
        | _ :: _ :: _, members => simp at members

/-- Renaming fails, and neither the groups nor the board are what they were. -/
theorem failed_rename_not_atomic :
    Ensures
      (rename 0 (.virtual "signal-B")
        (unheard, operateAll { signal := .virtual "signal-A" } unheardGroup))
      (fun _ _ => False)
      (fun _ (other, later) =>
        later.groups ≠ (operateAll { signal := .virtual "signal-A" } unheardGroup).groups ∧
          (later.lookup (some 0)).1 ≠
            ((operateAll { signal := .virtual "signal-A" } unheardGroup).lookup (some 0)).1 ∧
          (other.entity 0).body ≠ (unheard.entity 0).body ∧
          other.signals ⟨0, .one⟩ ≠ unheard.signals ⟨0, .one⟩ ∧
          other.networks[0]? ≠ unheard.networks[0]?) := by
  decide +kernel

end CircuitNetwork.Collection
