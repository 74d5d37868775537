import CircuitNetwork.Groups.Extraction
import CircuitNetwork.Proofs.Groups.Extraction

namespace CircuitNetwork

/-!
# Groups list their members once

No operation on a collection changes its signal, gives a group another identity or
makes it list a member twice.
-/

namespace Group

/-- A group with its own identity that lists nothing twice. -/
structure Orderly (id : Nat) (group : Group) : Prop where
  id_eq : group.id = id
  nodup_points : group.points.Nodup
  nodup_networks : group.networks.Nodup

namespace Orderly

variable {id : Nat} {group : Group}

/-- A new group lists nothing. -/
theorem empty (id : Nat) : Orderly id { id := id } :=
  ⟨rfl, List.nodup_nil, List.nodup_nil⟩

/-- An endpoint is listed only if it is not yet in the group. -/
theorem addPoint
    (orderly : Orderly id group)
    (point : Option Endpoint) :
    Orderly id (group.addPoint point) := by
  unfold Group.addPoint
  split
  · exact orderly
  · rename_i absent
    simp only [List.contains_iff_mem] at absent
    exact ⟨orderly.id_eq, by simpa using orderly.nodup_points.concat absent,
      orderly.nodup_networks⟩

/-- A network is listed only if it is not yet in the group. -/
theorem addNetwork
    (orderly : Orderly id group)
    (network : Nat) :
    Orderly id (group.addNetwork network) := by
  unfold Group.addNetwork
  split
  · exact orderly
  · rename_i absent
    simp only [List.contains_iff_mem] at absent
    exact ⟨orderly.id_eq, orderly.nodup_points,
      by simpa using orderly.nodup_networks.concat absent⟩

/-- A group that takes another one in lists what both have once. -/
theorem absorb
    (orderly : Orderly id group)
    (other : Group) :
    Orderly id (group.absorb other) :=
  List.foldlRecOn other.networks _
    (List.foldlRecOn other.points _ orderly fun _ before point _ => before.addPoint point)
    fun _ before network _ => before.addNetwork network

end Orderly

end Group

namespace Collection

/-- A collection of a signal with orderly groups. -/
structure Neat (signal : Signal) (collection : Collection) : Prop where
  signal_eq : collection.signal = signal
  orderly : ∀ (id : Nat) slot, collection.slots[id]? = some slot → slot.group.Orderly id

namespace Neat

variable {signal : Signal} {collection : Collection}

/-- Also the group in a place that is not there is orderly, because it is empty. -/
theorem groupAt
    (neat : Neat signal collection)
    (id : Nat) :
    (collection.groupAt id).Orderly id := by
  unfold Collection.groupAt
  cases found : collection.slots[id]? with
  | none => exact .empty id
  | some slot => exact neat.orderly id slot found

/-- A slot can be changed if its group stays orderly. -/
theorem modifySlot
    (neat : Neat signal collection)
    (id : Nat)
    {change : Slot → Slot}
    (kept : ∀ slot, slot.group.Orderly id → (change slot).group.Orderly id) :
    Neat signal (collection.modifySlot id change) where
  signal_eq := neat.signal_eq
  orderly := by
    intro asked slot found
    rw [getElem?_modifySlot] at found
    split at found
    · rename_i same
      subst same
      obtain ⟨before, foundBefore, rfl⟩ := Option.map_eq_some_iff.mp found
      exact kept before (neat.orderly asked before foundBefore)
    · exact neat.orderly asked slot found

/-- Finding a root only changes the parents of slots. -/
theorem findFrom
    (neat : Neat signal collection)
    (steps id : Nat) :
    Neat signal (Collection.findFrom steps id collection).2 := by
  fun_induction Collection.findFrom steps id collection with
  | case1 => exact neat
  | case2 => exact neat
  | case3 collection id _ _ _ inductionHypothesis =>
      exact inductionHypothesis (neat.modifySlot _ fun _ orderly => orderly)

theorem find
    (neat : Neat signal collection)
    (id : Nat) :
    Neat signal (collection.find id).2 :=
  neat.findFrom _ id

theorem lookup
    (neat : Neat signal collection)
    (network : Option Nat) :
    Neat signal (collection.lookup network).2 := by
  unfold Collection.lookup
  split
  · exact neat
  · exact neat.find _

/-- A new group is in the place of its identity. -/
theorem newGroup
    (neat : Neat signal collection) :
    Neat signal collection.newGroup.2 where
  signal_eq := neat.signal_eq
  orderly := by
    intro id slot found
    simp only [Collection.newGroup, Array.getElem?_push] at found
    split at found
    · rename_i isNew
      cases found
      exact isNew ▸ .empty _
    · exact neat.orderly id slot found

/-- The root takes the members of the child, which is left empty. -/
theorem link
    (neat : Neat signal collection)
    (root child : Nat) :
    Neat signal (collection.link root child) :=
  (neat.modifySlot root fun _ orderly => orderly.absorb _).modifySlot child fun _ _ => .empty child

theorem regroup
    (neat : Neat signal collection)
    {id : Nat}
    {change : Group → Group}
    (kept : ∀ group, Group.Orderly id group → (change group).Orderly id)
    (owners : List (Nat × Nat)) :
    Neat signal (collection.regroup id change owners) := by
  have modified : Neat signal
      (collection.modifySlot id fun slot => { slot with group := change slot.group }) :=
    neat.modifySlot id fun slot orderly => kept slot.group orderly
  exact ⟨modified.signal_eq, modified.orderly⟩

/-- Whether a collection is neat depends on its signal and its groups only. -/
theorem of_group_eq
    {other : Collection}
    (neat : Neat signal collection)
    (signalEq : other.signal = collection.signal)
    (groupEq : ∀ id : Nat,
      other.slots[id]?.map (·.group) = collection.slots[id]?.map (·.group)) :
    Neat signal other where
  signal_eq := signalEq.trans neat.signal_eq
  orderly := by
    intro id slot found
    have isGroup := groupEq id
    rw [found, Option.map_some] at isGroup
    obtain ⟨before, foundBefore, sameGroup⟩ := Option.map_eq_some_iff.mp isGroup.symm
    exact sameGroup ▸ neat.orderly id before foundBefore

theorem of_sameForest
    {other : Collection}
    (neat : Neat signal collection)
    (same : SameForest collection other) :
    Neat signal other :=
  neat.of_group_eq same.signal_eq (same.map_slot_eq (·.group) fun _ => rfl)

theorem merge
    (neat : Neat signal collection)
    (first second : Nat) :
    Neat signal (collection.merge first second).2 := by
  have found := (neat.find first).find second
  simp only [Collection.merge]
  split
  · exact found
  · split
    · exact found.link _ _
    · exact found.link _ _

theorem addPoint
    (neat : Neat signal collection)
    (id : Nat)
    (point : Option Endpoint) :
    Neat signal (collection.addPoint id point) :=
  (neat.find id).modifySlot _ fun _ orderly => orderly.addPoint point

/-- A network that has a group already is not listed again; the groups are merged. -/
theorem addNetwork
    (neat : Neat signal collection)
    (id : Nat)
    (network : Option Nat) :
    Neat signal (collection.addNetwork id network).2 := by
  unfold Collection.addNetwork
  cases network with
  | none => exact neat.find id
  | some added =>
      have looked := neat.lookup (some added)
      cases found : collection.lookup (some added) with
      | mk current other =>
          rw [found] at looked
          cases current with
          | some current => exact looked.merge current id
          | none =>
              have modified : Neat signal ((other.find id).2.modifySlot (other.find id).1
                  fun slot => { slot with group := slot.group.addNetwork added }) :=
                (looked.find id).modifySlot _ fun _ orderly => orderly.addNetwork added
              exact ⟨modified.signal_eq, modified.orderly⟩

/-- The networks of an endpoint are added one color after the other. -/
theorem addNetworks
    (neat : Neat signal collection)
    (board : Board)
    (id : Nat)
    (point : Endpoint) :
    Neat signal (collection.addNetworks board id point).2 :=
  (neat.addNetwork id (board.network? .red point)).addNetwork _ (board.network? .green point)

/-- Looking for the group of an endpoint may merge the groups of its two networks. -/
theorem pointGroup
    (neat : Neat signal collection)
    (board : Board)
    (point : Endpoint) :
    Neat signal (collection.pointGroup board point).2 := by
  have looked := (neat.lookup (board.network? .red point)).lookup (board.network? .green point)
  simp only [Collection.pointGroup]
  split
  · exact looked.merge _ _
  · exact looked
  · exact looked
  · exact looked

/-- An endpoint without a group gets one that lists its networks. -/
theorem ensurePointGroup
    (neat : Neat signal collection)
    (board : Board)
    (point : Endpoint) :
    Neat signal (collection.ensurePointGroup board point).2 := by
  have gathered := neat.pointGroup board point
  unfold Collection.ensurePointGroup
  split
  · rename_i found
    rw [found] at gathered
    exact gathered
  · rename_i found
    rw [found] at gathered
    exact gathered.newGroup.addNetworks board _ point

end Neat

end Collection

namespace SignalGroups

open Collection

/-- Every collection is that of its signal, and its groups are orderly. -/
def AllNeat (groups : SignalGroups) : Prop :=
  ∀ signal, Neat signal (groups.collection signal)

namespace AllNeat

variable {groups : SignalGroups}

theorem insert
    (neat : AllNeat groups)
    {signal : Signal}
    {collection : Collection}
    (inserted : Neat signal collection) :
    AllNeat (groups.insert signal collection) := by
  intro asked
  rw [collection_insert]
  split
  · rename_i same
    exact same ▸ inserted
  · exact neat asked

/-- Extraction keeps the collections neat while it goes through the signals put out. -/
theorem addOutputs
    (neat : AllNeat groups)
    (board : Board)
    (entity : Nat) :
    AllNeat (SignalGroups.addOutputs board groups entity) :=
  List.foldlRecOn _ _ neat fun _ before signal _ =>
    before.insert ((((before signal).ensurePointGroup board _).addNetworks board _ _).addPoint _ _)

/-- Extraction keeps the collections neat while it goes through the signals read, also where it
merges through a combinator. -/
theorem addReaders
    (neat : AllNeat groups)
    (board : Board)
    (entity : Nat) :
    AllNeat (SignalGroups.addReaders board groups entity) := by
  have read : AllNeat ((board.entity entity).body.operands.foldl
      (addReader board (board.input entity)) groups) :=
    List.foldlRecOn _ _ neat fun _ before signal _ =>
      before.insert (((before signal).ensurePointGroup board _).addPoint _ _)
  simp only [SignalGroups.addReaders]
  split
  · exact List.foldlRecOn _ _ neat fun _ before signal _ =>
      before.insert ((before signal).pointGroup board _)
  · split
    · exact List.foldlRecOn _ _ read fun between before signal _ => by
        have entered := (before signal).pointGroup board (board.input entity)
        unfold mergeThrough
        split
        · rename_i found
          rw [found] at entered
          exact before.insert entered
        · rename_i found
          rw [found] at entered
          have left := entered.pointGroup board (board.output entity)
          split
          · rename_i found
            rw [found] at left
            exact before.insert left
          · rename_i found
            rw [found] at left
            exact before.insert (left.merge _ _)
    · exact read

end AllNeat

/-- The collections that are extracted are neat. -/
theorem allNeat_extract
    {board : Board}
    {entities : List Nat}
    {groups : SignalGroups}
    (extracts : extract board entities = .ok groups) :
    AllNeat groups := by
  unfold extract at extracts
  split at extracts
  · cases extracts
  · cases extracts
    have empty : AllNeat SignalMap.empty := fun signal => ⟨rfl, by
      intro id slot found
      simp [SignalGroups.collection] at found⟩
    have outputs : AllNeat (entities.foldl (addOutputs board) SignalMap.empty) :=
      List.foldlRecOn _ _ empty fun _ before entity _ => before.addOutputs board entity
    exact List.foldlRecOn _ _ outputs fun _ before entity _ => before.addReaders board entity

end SignalGroups

end CircuitNetwork
