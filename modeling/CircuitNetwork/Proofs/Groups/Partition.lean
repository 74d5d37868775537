import CircuitNetwork.Proofs.Groups.Calls
import CircuitNetwork.Proofs.Groups.Components
import Mathlib.Algebra.GroupWithZero.Nat

namespace CircuitNetwork.Collection

/-!
# Collections as partitions

Whatever is asked of a collection, it answers as the partition of its identities
that the calls generate. Looking something up shortens ways to the roots, and
changes nothing that can be asked for later.
-/

open Call Relation

variable {signal : Signal} {collection other : Collection} {calls : List Call}

/-! ## Looking something up changes no later answer -/

/-- Collections that differ at most in the ways to the roots. -/
structure Alike (collection other : Collection) : Prop where
  owners_eq : other.owners = collection.owners
  size_eq : other.slots.size = collection.slots.size
  slot_eq : ∀ id : Nat, other.slots[id]?.map detached = collection.slots[id]?.map detached
  root_eq : ∀ id, other.root id = collection.root id

theorem SameForest.alike
    (same : SameForest collection other)
    (rooted : collection.Rooted) :
    Alike collection other :=
  ⟨same.owners_eq, same.size_eq, same.slot_eq, same.root_eq rooted⟩

namespace Alike

theorem symm
    (alike : Alike collection other) :
    Alike other collection :=
  ⟨alike.owners_eq.symm, alike.size_eq.symm, fun id => (alike.slot_eq id).symm,
    fun id => (alike.root_eq id).symm⟩

theorem trans
    {last : Collection}
    (alike : Alike collection other)
    (onward : Alike other last) :
    Alike collection last :=
  ⟨onward.owners_eq.trans alike.owners_eq, onward.size_eq.trans alike.size_eq,
    fun id => (onward.slot_eq id).trans (alike.slot_eq id),
    fun id => (onward.root_eq id).trans (alike.root_eq id)⟩

theorem map_slot_eq
    {α : Type}
    (alike : Alike collection other)
    (read : Slot → α)
    (ignores : ∀ slot, read (detached slot) = read slot)
    (id : Nat) :
    other.slots[id]?.map read = collection.slots[id]?.map read := by
  have slotEq := congrArg (Option.map read) (alike.slot_eq id)
  simpa only [Option.map_map, Function.comp_def, ignores] using slotEq

theorem groupAt_eq
    (alike : Alike collection other)
    (id : Nat) :
    other.groupAt id = collection.groupAt id := by
  rw [groupAt, alike.map_slot_eq (·.group) (fun _ => rfl), groupAt]

theorem rank_eq
    (alike : Alike collection other)
    (id : Nat) :
    other.rank id = collection.rank id := by
  rw [rank, alike.map_slot_eq (·.rank) (fun _ => rfl), rank]

theorem isRenamed_eq
    (alike : Alike collection other)
    (id : Nat) :
    other.isRenamed id = collection.isRenamed id := by
  rw [isRenamed, alike.map_slot_eq (·.renamed) (fun _ => rfl), isRenamed]

/-- The same change of one slot. -/
theorem slot_eq_modifySlot
    (slotEq : ∀ id : Nat, other.slots[id]?.map detached = collection.slots[id]?.map detached)
    {change : Slot → Slot}
    (respects : ∀ slot, detached (change (detached slot)) = detached (change slot))
    (changed id : Nat) :
    (other.modifySlot changed change).slots[id]?.map detached =
      (collection.modifySlot changed change).slots[id]?.map detached := by
  rw [getElem?_modifySlot, getElem?_modifySlot]
  split
  · have changedEq := congrArg (Option.map fun slot => detached (change slot)) (slotEq changed)
    simpa only [Option.map_map, Function.comp_def, respects] using changedEq
  · exact slotEq id

/-- The current groups do not depend on the ways to the roots. -/
theorem groups_eq
    (alike : Alike collection other)
    (rooted : collection.Rooted)
    (otherRooted : other.Rooted) :
    other.groups = collection.groups := by
  have sameRoots : other.roots = collection.roots := by
    simp only [rooted.roots_eq, otherRooted.roots_eq, alike.size_eq, alike.root_eq,
      alike.isRenamed_eq]
  rw [Collection.groups_eq, Collection.groups_eq, sameRoots]
  exact List.map_congr_left fun id _ => alike.groupAt_eq id

theorem home_eq
    (alike : Alike collection other)
    (network : Nat) :
    other.home network = collection.home network := by
  rw [home, home, alike.owners_eq, funext alike.root_eq]

theorem newGroup
    (alike : Alike collection other)
    (wellformed : collection.Wellformed)
    (otherWellformed : other.Wellformed) :
    Alike collection.newGroup.2 other.newGroup.2 where
  owners_eq := alike.owners_eq
  size_eq := by simp [Collection.newGroup, alike.size_eq]
  slot_eq := by
    intro id
    simp only [Collection.newGroup, Array.getElem?_push, alike.size_eq]
    split
    · rfl
    · exact alike.slot_eq id
  root_eq := by
    intro id
    rw [otherWellformed.newGroup.2.2.1, wellformed.newGroup.2.2.1, alike.root_eq]

theorem addPoint
    (alike : Alike collection other)
    (wellformed : collection.Wellformed)
    (otherWellformed : other.Wellformed)
    {id : Nat}
    (inRange : id < collection.slots.size)
    (point : Option Endpoint) :
    Alike (collection.addPoint id point) (other.addPoint id point) := by
  obtain ⟨-, sizeEq, rootEq, -⟩ := wellformed.addPoint_eq inRange point
  obtain ⟨-, otherSizeEq, otherRootEq, -⟩ :=
    otherWellformed.addPoint_eq (alike.size_eq ▸ inRange) point
  obtain ⟨next, found, same⟩ := wellformed.rooted.find_eq id
  obtain ⟨otherNext, otherFound, otherSame⟩ := otherWellformed.rooted.find_eq id
  have between := ((same.alike wellformed.rooted).symm.trans alike).trans
    (otherSame.alike otherWellformed.rooted)
  refine ⟨?_, by rw [otherSizeEq, sizeEq, alike.size_eq], ?_,
    fun asked => by rw [otherRootEq, rootEq, alike.root_eq]⟩
  · simp only [Collection.addPoint, found, otherFound]
    exact between.owners_eq
  · simp only [Collection.addPoint, found, otherFound, alike.root_eq]
    exact slot_eq_modifySlot between.slot_eq (fun _ => rfl) _

theorem slot_eq_link
    (alike : Alike collection other)
    (root child id : Nat) :
    (other.link root child).slots[id]?.map detached =
      (collection.link root child).slots[id]?.map detached := by
  simp only [link, alike.groupAt_eq, alike.rank_eq]
  exact slot_eq_modifySlot (slot_eq_modifySlot alike.slot_eq (fun _ => rfl) root) (fun _ => rfl)
    child id

/-- Merging chooses the root by ranks and identities, and not by the ways to the roots. -/
theorem merge
    (alike : Alike collection other)
    (wellformed : collection.Wellformed)
    (otherWellformed : other.Wellformed)
    {first second : Nat}
    (firstInRange : first < collection.slots.size)
    (secondInRange : second < collection.slots.size) :
    (other.merge first second).1 = (collection.merge first second).1 ∧
      Alike (collection.merge first second).2 (other.merge first second).2 := by
  obtain ⟨root, merged, mergedEq, fused⟩ := wellformed.merge_eq firstInRange secondInRange
  obtain ⟨otherRoot, otherMerged, otherMergedEq, otherFused⟩ := otherWellformed.merge_eq
    (alike.size_eq ▸ firstInRange) (alike.size_eq ▸ secondInRange)
  have twoFinds {some : Collection} (someWellformed : some.Wellformed) :
      ∃ between found, some.find first = (some.root first, between) ∧
        between.find second = (some.root second, found) ∧ SameForest some found := by
    obtain ⟨between, firstFound, firstSame⟩ := someWellformed.rooted.find_eq first
    obtain ⟨found, secondFound, secondSame⟩ :=
      (firstSame.rooted someWellformed.rooted).find_eq second
    rw [firstSame.root_eq someWellformed.rooted] at secondFound
    exact ⟨between, found, firstFound, secondFound, firstSame.trans secondSame⟩
  obtain ⟨between, found, firstFound, secondFound, same⟩ := twoFinds wellformed
  obtain ⟨otherBetween, otherFound, otherFirst, otherSecond, otherSame⟩ := twoFinds otherWellformed
  have foundAlike := ((same.alike wellformed.rooted).symm.trans alike).trans
    (otherSame.alike otherWellformed.rooted)
  -- The same branch is taken on both sides, and the same root is made a child.
  have outcome : (other.merge first second).1 = (collection.merge first second).1 ∧
      (other.merge first second).2.owners = (collection.merge first second).2.owners ∧
      ∀ id : Nat, (other.merge first second).2.slots[id]?.map detached =
        (collection.merge first second).2.slots[id]?.map detached := by
    simp only [Collection.merge, firstFound, secondFound, otherFirst, otherSecond, alike.root_eq,
      foundAlike.rank_eq]
    split
    · exact ⟨rfl, foundAlike.owners_eq, foundAlike.slot_eq⟩
    · split
      · exact ⟨rfl, foundAlike.owners_eq, foundAlike.slot_eq_link _ _⟩
      · exact ⟨rfl, foundAlike.owners_eq, foundAlike.slot_eq_link _ _⟩
  obtain ⟨sameAnswer, sameOwners, sameSlots⟩ := outcome
  refine ⟨sameAnswer, sameOwners, ?_, sameSlots, ?_⟩
  · rw [mergedEq, otherMergedEq, fused.size_eq, otherFused.size_eq, alike.size_eq]
  · intro id
    rw [mergedEq, otherMergedEq] at *
    rw [otherFused.root_eq, fused.root_eq]
    simp only [alike.root_eq]
    rw [show otherRoot = root from sameAnswer]

/-- A new owner of a network is chosen the same way too. -/
theorem addNetwork
    (alike : Alike collection other)
    (wellformed : collection.Wellformed)
    (otherWellformed : other.Wellformed)
    {id : Nat}
    (inRange : id < collection.slots.size)
    (network : Option Nat) :
    (other.addNetwork id network).1 = (collection.addNetwork id network).1 ∧
      Alike (collection.addNetwork id network).2 (other.addNetwork id network).2 := by
  have between {first second : Collection} (firstSame : SameForest collection first)
      (secondSame : SameForest other second) : Alike first second :=
    ((firstSame.alike wellformed.rooted).symm.trans alike).trans
      (secondSame.alike otherWellformed.rooted)
  cases network with
  | none =>
      obtain ⟨next, found, same⟩ := wellformed.rooted.find_eq id
      obtain ⟨otherNext, otherFound, otherSame⟩ := otherWellformed.rooted.find_eq id
      simp only [Collection.addNetwork, found, otherFound, alike.root_eq, true_and]
      exact between same otherSame
  | some network =>
      obtain ⟨looked, lookup, lookupSame⟩ := wellformed.rooted.lookup_eq (some network)
      obtain ⟨otherLooked, otherLookup, otherLookupSame⟩ :=
        otherWellformed.rooted.lookup_eq (some network)
      have lookedAlike := between lookupSame otherLookupSame
      have lookedWellformed := lookupSame.wellformed wellformed
      have otherLookedWellformed := otherLookupSame.wellformed otherWellformed
      cases atHome : collection.home network with
      | some current =>
          have merged : ∀ some : Collection, some.home network = .some current →
              ∀ next, some.lookup (.some network) = ((Option.some network).bind some.home, next) →
                some.addNetwork id (.some network) = next.merge current id := by
            intro some someHome next someLookup
            simp only [Collection.addNetwork, someLookup, Option.bind_some, someHome]
          rw [merged _ atHome _ lookup, merged _ (alike.home_eq network ▸ atHome) _ otherLookup]
          exact lookedAlike.merge lookedWellformed otherLookedWellformed
            (lookupSame.size_eq ▸ wellformed.home_lt atHome) (lookupSame.size_eq ▸ inRange)
      | none =>
          have otherHome := (alike.home_eq network).trans atHome
          obtain ⟨added, addedEq, -, sizeEq, rootEq, -⟩ :=
            wellformed.addNetwork_of_homeless inRange atHome
          obtain ⟨otherAdded, otherAddedEq, -, otherSizeEq, otherRootEq, -⟩ :=
            otherWellformed.addNetwork_of_homeless (alike.size_eq ▸ inRange) otherHome
          obtain ⟨found, foundEq, foundSame⟩ := lookedWellformed.rooted.find_eq id
          obtain ⟨otherFound, otherFoundEq, otherFoundSame⟩ := otherLookedWellformed.rooted.find_eq id
          have foundAlike := between (lookupSame.trans foundSame)
            (otherLookupSame.trans otherFoundSame)
          have slots : (other.addNetwork id (some network)).2.owners =
                (collection.addNetwork id (some network)).2.owners ∧
              ∀ asked : Nat, (other.addNetwork id (some network)).2.slots[asked]?.map detached =
                (collection.addNetwork id (some network)).2.slots[asked]?.map detached := by
            simp only [Collection.addNetwork, lookup, otherLookup, Option.bind_some, atHome,
              otherHome, foundEq, otherFoundEq, lookedAlike.root_eq]
            refine ⟨by rw [modifySlot, modifySlot, foundAlike.owners_eq], ?_⟩
            exact slot_eq_modifySlot foundAlike.slot_eq (fun _ => rfl) _
          rw [addedEq, otherAddedEq] at *
          exact ⟨alike.root_eq id, slots.1, by rw [otherSizeEq, sizeEq, alike.size_eq], slots.2,
            fun asked => by rw [otherRootEq, rootEq, alike.root_eq]⟩

/-- Collections that differ at most in the ways to the roots give the same answer to a call, and
again differ at most in these ways after it. -/
theorem perform
    (alike : Alike collection other)
    (wellformed : collection.Wellformed)
    (otherWellformed : other.Wellformed)
    {call : Call}
    (inScope : ∀ id ∈ call.ids, id < collection.slots.size) :
    (other.perform call).1 = (collection.perform call).1 ∧
      Alike (collection.perform call).2 (other.perform call).2 := by
  have rooted := wellformed.rooted
  have otherRooted := otherWellformed.rooted
  have between {first second : Collection} (firstSame : SameForest collection first)
      (secondSame : SameForest other second) : Alike first second :=
    ((firstSame.alike rooted).symm.trans alike).trans (secondSame.alike otherRooted)
  cases call with
  | newGroup =>
      refine ⟨?_, alike.newGroup wellformed otherWellformed⟩
      simp only [Collection.perform, Collection.newGroup, Prod.map, alike.size_eq]
  | find id =>
      obtain ⟨next, found, same⟩ := rooted.find_eq id
      obtain ⟨otherNext, otherFound, otherSame⟩ := otherRooted.find_eq id
      simp only [Collection.perform, found, otherFound, Prod.map, id_eq, alike.root_eq, true_and]
      exact between same otherSame
  | group id =>
      obtain ⟨next, found, same⟩ := rooted.find_eq id
      obtain ⟨otherNext, otherFound, otherSame⟩ := otherRooted.find_eq id
      simp only [Collection.perform, Collection.group, found, otherFound, Prod.map, id_eq,
        alike.root_eq, (between same otherSame).groupAt_eq, true_and]
      exact between same otherSame
  | lookup network =>
      obtain ⟨next, found, same⟩ := wellformed.rooted.lookup_eq network
      obtain ⟨otherNext, otherFound, otherSame⟩ := otherWellformed.rooted.lookup_eq network
      simp only [Collection.perform, found, otherFound, Prod.map, id_eq, funext alike.home_eq,
        true_and]
      exact between same otherSame
  | groups =>
      exact ⟨congrArg Answer.groups (alike.groups_eq rooted otherRooted), alike⟩
  | addPoint id added =>
      exact ⟨rfl, alike.addPoint wellformed otherWellformed (inScope id (by simp [ids])) added⟩
  | merge first second =>
      obtain ⟨sameAnswer, alikeAfter⟩ := alike.merge wellformed otherWellformed
        (inScope first (by simp [ids])) (inScope second (by simp [ids]))
      exact ⟨congrArg Answer.identity sameAnswer, alikeAfter⟩
  | addNetwork id network =>
      obtain ⟨sameAnswer, alikeAfter⟩ := alike.addNetwork wellformed otherWellformed
        (inScope id (by simp [ids])) network
      exact ⟨congrArg Answer.identity sameAnswer, alikeAfter⟩

/-- All later answers are the same. -/
theorem answers
    {others later : List Call}
    (alike : Alike collection other)
    (refines : Refines signal calls collection)
    (otherRefines : Refines signal others other)
    (inScope : InScope collection.slots.size later) :
    other.answers later = collection.answers later := by
  induction later generalizing collection other calls others with
  | nil =>
      rfl
  | cons call rest inductionHypothesis =>
      obtain ⟨here, onward⟩ := inScope
      obtain ⟨sameAnswer, alikeAfter⟩ :=
        alike.perform refines.wellformed otherRefines.wellformed here
      obtain ⟨refinesAfter, sizeEq⟩ := refines.perform here
      obtain ⟨otherRefinesAfter, -⟩ := otherRefines.perform (alike.size_eq ▸ here)
      rw [Collection.answers, Collection.answers, sameAnswer,
        inductionHypothesis alikeAfter refinesAfter otherRefinesAfter (sizeEq ▸ onward)]

end Alike

/-- A look-up changes at most the ways to the roots. -/
theorem Wellformed.alike_of_isLookup
    (wellformed : collection.Wellformed)
    {call : Call}
    (isLookup : call.isLookup = true) :
    Alike collection (collection.perform call).2 := by
  have rooted := wellformed.rooted
  cases call with
  | find id =>
      obtain ⟨next, found, same⟩ := rooted.find_eq id
      simp only [Collection.perform, found, Prod.map, id_eq]
      exact same.alike rooted
  | group id =>
      obtain ⟨next, found, same⟩ := rooted.find_eq id
      simp only [Collection.perform, Collection.group, found, Prod.map, id_eq]
      exact same.alike rooted
  | lookup network =>
      obtain ⟨next, found, same⟩ := wellformed.rooted.lookup_eq network
      simp only [Collection.perform, found, Prod.map, id_eq]
      exact same.alike rooted
  | groups =>
      exact (SameForest.refl collection).alike rooted
  | newGroup => cases isLookup
  | addNetwork id network => cases isLookup
  | addPoint id added => cases isLookup
  | merge first second => cases isLookup

/-! ## Answers as a partition -/

/-- More steps than the way to the root takes make no difference. -/
theorem findFrom_eq_of_leads
    {limit more steps id root : Nat}
    (leads : collection.Leads steps id root)
    (enough : steps ≤ limit)
    (alsoEnough : steps ≤ more) :
    findFrom limit id collection = findFrom more id collection := by
  induction limit generalizing collection more steps id with
  | zero =>
      obtain rfl : steps = 0 := by omega
      cases leads with
      | root isRoot =>
          cases more with
          | zero => rfl
          | succ more => rw [findFrom, findFrom, if_pos isRoot]
  | succ limit inductionHypothesis =>
      cases leads with
      | root isRoot =>
          cases more with
          | zero => rw [findFrom, findFrom, if_pos isRoot]
          | succ more => rw [findFrom, findFrom, if_pos isRoot, if_pos isRoot]
      | @step _ steps _ isChild parentLeads =>
          obtain ⟨more, rfl⟩ : ∃ fewer, more = fewer + 1 := ⟨more - 1, by omega⟩
          obtain ⟨rest, restSteps, grandparentLeads⟩ :
              ∃ rest ≤ steps, collection.Leads rest
                (collection.parent (collection.parent id)) root := by
            cases parentLeads with
            | root isRoot =>
                exact ⟨0, Nat.zero_le _, by rw [isRoot]; exact .root isRoot⟩
            | @step _ rest _ _ grandparentLeads =>
                exact ⟨rest, Nat.le_succ rest, grandparentLeads⟩
          obtain ⟨fewer, shorter, skippedLeads⟩ :=
            (sameForest_skip isChild).leads _ _ _ grandparentLeads
          rw [findFrom, findFrom, if_neg isChild, if_neg isChild]
          exact inductionHypothesis skippedLeads (by omega) (by omega)

/-- A collection that answers as the partition that calls generate. -/
structure IsPartition (calls : List Call) (collection : Collection) : Prop where
  size_eq : collection.slots.size = (calls.map created).sum
  /-- Walking to the root ends there, whatever number of steps above the size it may take. -/
  find_ends : ∀ id limit, collection.slots.size ≤ limit →
    findFrom limit id collection = collection.find id ∧
      collection.parent (collection.find id).1 = (collection.find id).1
  /-- Identities have one root exactly if they are in one class. -/
  find_iff : ∀ first second,
    (collection.find first).1 = (collection.find second).1 ↔ EqvGen (Links calls) first second
  /-- A group is that of the root and lists what was added to its class, each member once. -/
  group_eq : ∀ id, (collection.group id).1.Orderly (collection.find id).1
  mem_points_iff : ∀ id point, point ∈ (collection.group id).1.points ↔
    ∃ asked, .addPoint asked point ∈ calls ∧ EqvGen (Links calls) asked id
  mem_networks_iff : ∀ id network, network ∈ (collection.group id).1.networks ↔
    ∃ asked, .addNetwork asked (some network) ∈ calls ∧ EqvGen (Links calls) asked id
  /-- A network is found in the class that it was added to, and only if it was added. -/
  lookup_eq : ∀ id network, .addNetwork id (some network) ∈ calls →
    (collection.lookup (some network)).1 = some (collection.find id).1
  lookup_eq_none_iff : ∀ network, (collection.lookup (some network)).1 = none ↔
    ∀ id, .addNetwork id (some network) ∉ calls
  /-- Each class is listed once, in the order of the roots. -/
  groups_increasing : (collection.groups.map (·.id)).Pairwise (· < ·)
  mem_groups_iff : ∀ group, group ∈ collection.groups ↔
    ∃ id < collection.slots.size, (collection.group id).1 = group

theorem Refines.isPartition
    (refines : Refines signal calls collection)
    (size_eq : collection.slots.size = (calls.map created).sum) :
    IsPartition calls collection := by
  have wellformed := refines.wellformed
  have rooted := wellformed.rooted
  have groupEq (id : Nat) : (collection.group id).1 = collection.groupAt (collection.root id) := by
    obtain ⟨next, found, same⟩ := rooted.find_eq id
    rw [group, found]
    exact same.groupAt_eq _
  have lookupEq (network : Nat) :
      (collection.lookup (some network)).1 = collection.home network := by
    obtain ⟨next, found, -⟩ := wellformed.rooted.lookup_eq (some network)
    rw [found]
    rfl
  constructor
  · exact size_eq
  · intro id limit enough
    obtain ⟨steps, leads⟩ := rooted.leads_root id
    exact ⟨findFrom_eq_of_leads leads (Nat.le_trans leads.le_size enough) leads.le_size,
      rooted.parent_root id⟩
  · exact refines.root_iff
  · intro id
    rw [groupEq]
    exact refines.neat.groupAt _
  · intro id point
    rw [groupEq]
    change collection.HasPoint id point ↔ _
    simp only [refines.hasPoint_iff, refines.root_iff]
  · intro id network
    rw [groupEq, wellformed.mem_networks_iff _ (rooted.parent_root id)]
    simp only [refines.home_iff, refines.root_iff]
  · intro id network added
    rw [lookupEq]
    exact (refines.home_iff network _).mpr ⟨id, added, rfl⟩
  · intro network
    rw [lookupEq, Option.eq_none_iff_forall_ne_some]
    simp only [ne_eq, refines.home_iff]
    grind
  · have identities : collection.groups.map (·.id) = collection.roots := by
      rw [groups_eq, List.map_map]
      have own (id : Nat) : (collection.groupAt id).id = id := (refines.neat.groupAt id).id_eq
      simp [Function.comp_def, own]
    rw [identities]
    exact List.Pairwise.filter _ List.pairwise_lt_range
  · intro listed
    simp only [groupEq, groups_eq, List.mem_map, wellformed.mem_roots]
    constructor
    · rintro ⟨id, ⟨inRange, isRoot⟩, rfl⟩
      exact ⟨id, inRange, by rw [root_of_isRoot isRoot]⟩
    · rintro ⟨id, inRange, rfl⟩
      exact ⟨collection.root id, ⟨wellformed.root_lt inRange, rooted.parent_root id⟩, rfl⟩

theorem Refines.size_run
    {later : List Call}
    (refines : Refines signal calls collection)
    (inScope : InScope collection.slots.size later) :
    (collection.run later).slots.size = collection.slots.size + (later.map created).sum := by
  induction later generalizing calls collection with
  | nil =>
      rfl
  | cons call rest inductionHypothesis =>
      obtain ⟨here, onward⟩ := inScope
      obtain ⟨performed, sizeEq⟩ := refines.perform here
      have rest := inductionHypothesis performed (sizeEq ▸ onward)
      rw [Collection.run, List.foldl_cons, ← Collection.run, rest, sizeEq, List.map_cons, List.sum_cons, Nat.add_assoc]

instance decidableInScope :
    (count : Nat) → (calls : List Call) → Decidable (InScope count calls)
  | _, [] => isTrue trivial
  | count, call :: rest =>
      have := decidableInScope (count + call.created) rest
      inferInstanceAs (Decidable (_ ∧ _))

/-- After any calls on identities that were created before, a collection is the partition that the
calls generate, and no look-up changes any later answer. -/
theorem run_isPartition
    (signal : Signal)
    (calls : List Call)
    (inScope : InScope 0 calls) :
    IsPartition calls (run { signal := signal } calls) ∧
      ∀ query later, query.isLookup = true →
        InScope (run { signal := signal } calls).slots.size (query :: later) →
          ((run { signal := signal } calls).perform query).2.answers later =
            (run { signal := signal } calls).answers later := by
  have refines := (refines_empty signal).run inScope
  have sizeEq := (refines_empty signal).size_run inScope
  rw [List.nil_append] at refines
  refine ⟨refines.isPartition (by simpa using sizeEq), ?_⟩
  intro query later isLookup inScopeLater
  obtain ⟨here, onward⟩ := inScopeLater
  have notCreating : query.created = 0 := by
    cases query with
    | newGroup => cases isLookup
    | _ => rfl
  rw [notCreating] at onward
  exact (refines.wellformed.alike_of_isLookup isLookup).answers refines (refines.perform here).1
    onward

/-- Three groups that are made one by a merge and by a network that they share. -/
theorem run_isPartition_three_groups :
    let calls : List Call := [.newGroup, .newGroup, .newGroup, .addNetwork 0 (some 7),
      .addPoint 1 (some ⟨4, .one⟩), .merge 0 1, .addNetwork 2 (some 7)]
    InScope 0 calls ∧ IsPartition calls (run { signal := .value } calls) ∧
      ((run { signal := .value } calls).perform (.find 2)).2.answers [.group 1] =
        (run { signal := .value } calls).answers [.group 1] := by
  intro calls
  have inScope : InScope 0 calls := by decide
  have partition := run_isPartition .value calls inScope
  exact ⟨inScope, partition.1, partition.2 (.find 2) [.group 1] rfl (by decide +kernel)⟩

end CircuitNetwork.Collection
