import CircuitNetwork.Proofs.Groups.Operations
import Mathlib.Data.Finset.Card
import Mathlib.Data.Finset.Range
import Mathlib.Data.Nat.Log
import Mathlib.Logic.Function.Iterate

namespace CircuitNetwork.Collection

/-!
# Ranks

Ranks grow on the way to a root, and a root of some rank represents at least that
power of two of identities. So no way to a root is longer than the logarithm of
their number. All operations are made of a few moves, each of which keeps this:
a way is shortened, a group is created, or a root becomes the child of another one
whose rank is not lower.
-/

variable {collection later : Collection}

/-- The identities that a root represents. -/
def represented (collection : Collection) (root : Nat) : Finset Nat :=
  {id ∈ Finset.range collection.slots.size | collection.root id = root}

theorem mem_represented
    {root id : Nat} :
    id ∈ collection.represented root ↔ id < collection.slots.size ∧ collection.root id = root := by
  simp [represented]

/-- A collection in which ranks grow toward the roots, and roots represent many identities. -/
structure Balanced (collection : Collection) : Prop where
  rooted : collection.Rooted
  rank_lt : ∀ id, collection.parent id ≠ id →
    collection.rank id < collection.rank (collection.parent id)
  two_pow_rank_le : ∀ root < collection.slots.size, collection.parent root = root →
    2 ^ collection.rank root ≤ (collection.represented root).card

/-! ## Ways to the roots -/

theorem rank_of_size_le
    {id : Nat}
    (outside : collection.slots.size ≤ id) :
    collection.rank id = 0 := by
  simp [rank, outside]

namespace Balanced

/-- Every link on the way to a root raises the rank. -/
theorem rank_add_le
    (balanced : collection.Balanced)
    {links id root : Nat}
    (leads : collection.Leads links id root) :
    collection.rank id + links ≤ collection.rank root := by
  induction leads with
  | root _ =>
      exact Nat.le_refl _
  | step isChild _ inductionHypothesis =>
      have := balanced.rank_lt _ isChild
      omega

theorem root_lt
    (balanced : collection.Balanced)
    {links id root : Nat}
    (inRange : id < collection.slots.size)
    (leads : collection.Leads links id root) :
    root < collection.slots.size := by
  by_contra outside
  have higher := balanced.rank_add_le leads
  rw [rank_of_size_le (Nat.le_of_not_lt outside)] at higher
  obtain rfl : links = 0 := by omega
  cases leads with
  | root _ => exact outside inRange

theorem links_le_log
    (balanced : collection.Balanced)
    {links id root : Nat}
    (inRange : id < collection.slots.size)
    (leads : collection.Leads links id root) :
    links ≤ Nat.log 2 collection.slots.size := by
  have higher := balanced.rank_add_le leads
  refine Nat.le_log_of_pow_le Nat.one_lt_two ?_
  calc 2 ^ links
      ≤ 2 ^ collection.rank root := Nat.pow_le_pow_right Nat.zero_lt_two (by omega)
    _ ≤ (collection.represented root).card :=
        balanced.two_pow_rank_le root (balanced.root_lt inRange leads) leads.isRoot
    _ ≤ (Finset.range collection.slots.size).card := Finset.card_filter_le ..
    _ = collection.slots.size := Finset.card_range _

theorem rank_le_rank_iterate
    (balanced : collection.Balanced)
    (links id : Nat) :
    collection.rank id ≤ collection.rank (collection.parent^[links] id) := by
  induction links generalizing id with
  | zero =>
      exact Nat.le_refl _
  | succ links inductionHypothesis =>
      rw [Function.iterate_succ_apply]
      by_cases isRoot : collection.parent id = id
      · rw [isRoot]
        exact inductionHypothesis id
      · exact Nat.le_trans (Nat.le_of_lt (balanced.rank_lt id isRoot)) (inductionHypothesis _)

/-- Only a root comes back to itself. -/
theorem parent_eq_of_iterate_eq
    (balanced : collection.Balanced)
    {links id : Nat}
    (back : collection.parent^[links + 1] id = id) :
    collection.parent id = id := by
  by_contra isChild
  have higher := balanced.rank_lt id isChild
  have returned := balanced.rank_le_rank_iterate links (collection.parent id)
  rw [← Function.iterate_succ_apply, back] at returned
  omega

end Balanced

/-! ## Moves -/

/-- A change to the ways to the roots, or a change to something else. -/
inductive Move (collection : Collection) : Collection → Prop where
  | keep {later : Collection}
      (size_eq : later.slots.size = collection.slots.size)
      (parent_eq : ∀ id, later.parent id = collection.parent id)
      (rank_eq : ∀ id, later.rank id = collection.rank id) :
      Move collection later
  | newGroup :
      Move collection collection.newGroup.2
  | skip {id : Nat}
      (isChild : collection.parent id ≠ id) :
      Move collection (collection.modifySlot id
        ({ · with parent := collection.parent (collection.parent id) }))
  | link {root child : Nat}
      (apart : root ≠ child)
      (rootInRange : root < collection.slots.size)
      (childInRange : child < collection.slots.size)
      (rootIsRoot : collection.parent root = root)
      (childIsRoot : collection.parent child = child)
      (notLower : collection.rank child ≤ collection.rank root) :
      Move collection (collection.link root child)

theorem rank_modifySlot
    (collection : Collection)
    (id : Nat)
    (change : Slot → Slot)
    (keeps : ∀ slot, (change slot).rank = slot.rank)
    (asked : Nat) :
    (collection.modifySlot id change).rank asked = collection.rank asked := by
  rw [rank, getElem?_modifySlot, rank]
  split
  · rename_i same
    rw [same, Option.map_map, Function.comp_def]
    simp only [keeps]
  · rfl

theorem parent_modifySlot
    (collection : Collection)
    (id : Nat)
    (change : Slot → Slot)
    (keeps : ∀ slot, (change slot).parent = slot.parent)
    (asked : Nat) :
    (collection.modifySlot id change).parent asked = collection.parent asked := by
  rw [parent, getElem?_modifySlot, parent]
  split
  · rename_i same
    rw [same, Option.map_map, Function.comp_def]
    simp only [keeps]
  · rfl

theorem rank_newGroup
    (collection : Collection)
    (id : Nat) :
    collection.newGroup.2.rank id = collection.rank id := by
  simp only [newGroup, rank, Array.getElem?_push]
  split
  · rename_i same
    simp [same]
  · rfl

theorem rank_link
    {root child : Nat}
    (apart : root ≠ child)
    (rootInRange : root < collection.slots.size)
    (asked : Nat) :
    (collection.link root child).rank asked =
      if asked = root then
        collection.rank root + if collection.rank root = collection.rank child then 1 else 0
      else collection.rank asked := by
  rw [rank, link, getElem?_modifySlot, getElem?_modifySlot, if_neg apart.symm, getElem?_modifySlot]
  by_cases isChild : asked = child
  · rw [if_pos isChild, if_neg (isChild ▸ apart.symm), isChild, Option.map_map]
    rfl
  · rw [if_neg isChild]
    split
    · simp [rank, rootInRange]
    · rfl

/-- A change that keeps parents and ranks. -/
theorem Balanced.keep
    (balanced : collection.Balanced)
    (size_eq : later.slots.size = collection.slots.size)
    (parent_eq : ∀ id, later.parent id = collection.parent id)
    (rank_eq : ∀ id, later.rank id = collection.rank id) :
    later.Balanced := by
  obtain ⟨rooted, rootEq⟩ := balanced.rooted.of_parent_eq parent_eq
  refine ⟨rooted, ?_, ?_⟩
  · intro id isChild
    rw [parent_eq] at isChild ⊢
    rw [rank_eq, rank_eq]
    exact balanced.rank_lt id isChild
  · intro root inRange isRoot
    rw [size_eq] at inRange
    rw [parent_eq] at isRoot
    rw [rank_eq, represented, size_eq]
    simp only [rootEq]
    exact balanced.two_pow_rank_le root inRange isRoot

/-- A new group represents itself. -/
theorem Balanced.newGroup
    (balanced : collection.Balanced) :
    collection.newGroup.2.Balanced := by
  have parentEq (id : Nat) := (collection.newGroup_eq id).1
  have rankEq := collection.rank_newGroup
  have sizeEq : collection.newGroup.2.slots.size = collection.slots.size + 1 := by
    simp [Collection.newGroup]
  obtain ⟨rooted, rootEq⟩ := balanced.rooted.of_parent_eq parentEq
  refine ⟨rooted, ?_, ?_⟩
  · intro id isChild
    rw [parentEq] at isChild ⊢
    rw [rankEq, rankEq]
    exact balanced.rank_lt id isChild
  · intro root inRange isRoot
    rw [parentEq] at isRoot
    rw [rankEq]
    by_cases isNew : root = collection.slots.size
    · have itself : root ∈ collection.newGroup.2.represented root := by
        rw [mem_represented, rootEq]
        exact ⟨inRange, root_of_isRoot isRoot⟩
      rw [rank_of_size_le (Nat.le_of_eq isNew.symm)]
      exact Finset.card_pos.mpr ⟨root, itself⟩
    · refine Nat.le_trans (balanced.two_pow_rank_le root (by omega) isRoot)
        (Finset.card_le_card ?_)
      intro id
      rw [mem_represented, mem_represented, rootEq, sizeEq]
      exact fun member => ⟨Nat.lt_succ_of_lt member.1, member.2⟩

/-- A child of its grandparent has a lower rank than it. -/
theorem Balanced.skip
    (balanced : collection.Balanced)
    {id : Nat}
    (isChild : collection.parent id ≠ id) :
    (collection.modifySlot id
      ({ · with parent := collection.parent (collection.parent id) })).Balanced := by
  have same := sameForest_skip isChild
  have rankEq := collection.rank_modifySlot id
    ({ · with parent := collection.parent (collection.parent id) }) (fun _ => rfl)
  have parentSelf := collection.parent_modifySlot_self (lt_size_of_isChild isChild)
    ({ · with parent := collection.parent (collection.parent id) })
  have higher : collection.rank id < collection.rank (collection.parent (collection.parent id)) := by
    have first := balanced.rank_lt id isChild
    by_cases isRoot : collection.parent (collection.parent id) = collection.parent id
    · rwa [isRoot]
    · exact Nat.lt_trans first (balanced.rank_lt _ isRoot)
  refine ⟨same.rooted balanced.rooted, ?_, ?_⟩
  · intro asked askedIsChild
    rw [rankEq, rankEq]
    by_cases isId : asked = id
    · rw [isId, parentSelf]
      exact higher
    · rw [collection.parent_modifySlot_of_ne isId] at askedIsChild ⊢
      exact balanced.rank_lt asked askedIsChild
  · intro root inRange isRoot
    rw [size_modifySlot] at inRange
    have notId : root ≠ id := by
      rintro rfl
      rw [parentSelf] at isRoot
      change collection.parent (collection.parent root) = root at isRoot
      rw [isRoot] at higher
      exact Nat.lt_irrefl _ higher
    rw [collection.parent_modifySlot_of_ne notId] at isRoot
    rw [rankEq, represented, size_modifySlot]
    simp only [same.root_eq balanced.rooted]
    exact balanced.two_pow_rank_le root inRange isRoot

/-- A root that takes a child represents what both did. Its rank is raised only if they had the same
rank, and then both represent enough. -/
theorem Balanced.link
    (balanced : collection.Balanced)
    {root child : Nat}
    (apart : root ≠ child)
    (rootInRange : root < collection.slots.size)
    (childInRange : child < collection.slots.size)
    (rootIsRoot : collection.parent root = root)
    (childIsRoot : collection.parent child = child)
    (notLower : collection.rank child ≤ collection.rank root) :
    (collection.link root child).Balanced := by
  obtain ⟨rooted, rootEq, -⟩ := balanced.rooted.link apart rootIsRoot childIsRoot childInRange
  have parentEq := parent_link apart childInRange
  have rankEq := rank_link apart rootInRange
  have rank_le (id : Nat) : collection.rank id ≤ (collection.link root child).rank id := by
    rw [rankEq]
    split
    · rename_i isRoot
      rw [isRoot]
      exact Nat.le_add_right ..
    · exact Nat.le_refl _
  refine ⟨rooted, ?_, ?_⟩
  · intro id isChild
    rw [parentEq] at isChild ⊢
    by_cases wasRoot : id = child
    · rw [if_pos wasRoot, wasRoot, rankEq, rankEq, if_pos rfl, if_neg apart.symm]
      split
      · omega
      · omega
    · rw [if_neg wasRoot] at isChild ⊢
      have notRoot : id ≠ root := by
        rintro rfl
        exact isChild rootIsRoot
      rw [rankEq, if_neg notRoot]
      exact Nat.lt_of_lt_of_le (balanced.rank_lt id isChild) (rank_le _)
  · intro asked inRange isRoot
    rw [size_link] at inRange
    have notChild : asked ≠ child := by
      rintro rfl
      rw [parentEq, if_pos rfl] at isRoot
      exact apart isRoot
    rw [parentEq, if_neg notChild] at isRoot
    have enough := balanced.two_pow_rank_le asked inRange isRoot
    by_cases isTaker : asked = root
    · subst isTaker
      have united : (collection.link asked child).represented asked =
          collection.represented asked ∪ collection.represented child := by
        ext id
        rw [Finset.mem_union, mem_represented, mem_represented, mem_represented, rootEq, size_link]
        grind
      have disjoint :
          Disjoint (collection.represented asked) (collection.represented child) := by
        rw [Finset.disjoint_left]
        intro id inFirst inSecond
        rw [mem_represented] at inFirst inSecond
        exact apart (inFirst.2.symm.trans inSecond.2)
      have enoughChild := balanced.two_pow_rank_le child childInRange childIsRoot
      rw [united, Finset.card_union_of_disjoint disjoint, rankEq, if_pos rfl]
      split
      · rename_i sameRank
        rw [← sameRank] at enoughChild
        rw [Nat.pow_succ]
        omega
      · rw [Nat.add_zero]
        omega
    · have same : (collection.link root child).represented asked = collection.represented asked := by
        ext id
        rw [mem_represented, mem_represented, rootEq, size_link]
        grind
      rw [rankEq, if_neg isTaker, same]
      exact enough

theorem Move.balanced
    (move : Move collection later)
    (balanced : collection.Balanced) :
    later.Balanced := by
  cases move with
  | keep size_eq parent_eq rank_eq => exact balanced.keep size_eq parent_eq rank_eq
  | newGroup => exact balanced.newGroup
  | skip isChild => exact balanced.skip isChild
  | link apart rootInRange childInRange rootIsRoot childIsRoot notLower =>
      exact balanced.link apart rootInRange childInRange rootIsRoot childIsRoot notLower

/-- Moves one after another. -/
abbrev Moves : Collection → Collection → Prop :=
  Relation.ReflTransGen Move

theorem Moves.balanced
    (moves : Moves collection later)
    (balanced : collection.Balanced) :
    later.Balanced := by
  induction moves with
  | refl => exact balanced
  | tail _ move inductionHypothesis => exact move.balanced inductionHypothesis

/-! ## All operations are moves -/

theorem moves_findFrom
    (limit id : Nat)
    (collection : Collection) :
    Moves collection (findFrom limit id collection).2 := by
  induction limit generalizing id collection with
  | zero =>
      exact .refl
  | succ limit inductionHypothesis =>
      rw [findFrom]
      split
      · exact .refl
      · rename_i isChild
        exact .head (.skip isChild) (inductionHypothesis ..)

theorem moves_lookup
    (network : Option Nat)
    (collection : Collection) :
    Moves collection (collection.lookup network).2 := by
  rw [lookup]
  split
  · exact .refl
  · exact moves_findFrom ..

/-- A change to a slot that keeps its parent and its rank. -/
theorem moves_modifySlot
    (collection : Collection)
    (id : Nat)
    (change : Slot → Slot)
    (keepsParent : ∀ slot, (change slot).parent = slot.parent)
    (keepsRank : ∀ slot, (change slot).rank = slot.rank) :
    Moves collection (collection.modifySlot id change) :=
  .single (.keep (size_modifySlot ..) (collection.parent_modifySlot id change keepsParent)
    (collection.rank_modifySlot id change keepsRank))

theorem moves_of_slots_eq
    (slotsEq : later.slots = collection.slots) :
    Moves collection later :=
  .single (.keep (by rw [slotsEq]) (fun id => by rw [parent, slotsEq, parent])
    (fun id => by rw [rank, slotsEq, rank]))

/-- The root that stays is the one of higher rank. -/
theorem Balanced.moves_merge
    (balanced : collection.Balanced)
    {first second : Nat}
    (firstInRange : first < collection.slots.size)
    (secondInRange : second < collection.slots.size) :
    Moves collection (collection.merge first second).2 := by
  have rooted := balanced.rooted
  obtain ⟨between, firstFound, firstSame⟩ := rooted.find_eq first
  obtain ⟨found, secondFound, secondSame⟩ := (firstSame.rooted rooted).find_eq second
  have same := firstSame.trans secondSame
  have moves : Moves collection found := by
    have firstMoves := moves_findFrom collection.slots.size first collection
    have secondMoves := moves_findFrom between.slots.size second between
    rw [← find, firstFound] at firstMoves
    rw [← find, secondFound] at secondMoves
    exact firstMoves.trans secondMoves
  have isRoot (id : Nat) : found.parent (collection.root id) = collection.root id := by
    rw [← same.root_eq rooted]
    exact (same.rooted rooted).parent_root id
  have inRange {id : Nat} (created : id < collection.slots.size) :
      collection.root id < found.slots.size := by
    obtain ⟨links, leads⟩ := rooted.leads_root id
    rw [same.size_eq]
    exact balanced.root_lt created leads
  rw [firstSame.root_eq rooted] at secondFound
  rw [merge]
  simp only [firstFound, secondFound]
  split
  · exact moves
  · rename_i apart
    split
    · rename_i lower
      exact moves.tail (.link (Ne.symm apart) (inRange secondInRange) (inRange firstInRange)
        (isRoot second) (isRoot first) (by omega))
    · rename_i notLower
      exact moves.tail (.link apart (inRange firstInRange) (inRange secondInRange)
        (isRoot first) (isRoot second) (by omega))

theorem Balanced.moves_addNetwork
    (balanced : collection.Balanced)
    (sound : collection.Sound)
    {id : Nat}
    (inRange : id < collection.slots.size)
    (network : Option Nat) :
    Moves collection (collection.addNetwork id network).2 := by
  cases network with
  | none =>
      exact moves_findFrom ..
  | some network =>
      have moves := moves_lookup (some network) collection
      obtain ⟨found, looked, same⟩ := sound.rooted.lookup_eq (some network)
      rw [Collection.addNetwork]
      simp only [looked, Option.bind_some] at moves ⊢
      cases atHome : collection.home network with
      | some current =>
          refine moves.trans ((moves.balanced balanced).moves_merge ?_ ?_)
          · rw [same.size_eq]
            exact sound.home_lt atHome
          · rw [same.size_eq]
            exact inRange
      | none =>
          have added := moves_modifySlot (found.find id).2 (found.find id).1
            (fun slot => { slot with group := slot.group.addNetwork network })
            (fun _ => rfl) (fun _ => rfl)
          exact ((moves.trans (moves_findFrom ..)).trans added).trans (moves_of_slots_eq rfl)

theorem ensures_rename_moves
    (collection : Collection)
    (board : Board)
    (id : Nat)
    (new : Signal) :
    Ensures (rename id new (board, collection))
      (fun _ final => Moves collection final.2)
      (fun _ final => Moves collection final.2) := by
  obtain ⟨root, found, finds⟩ : ∃ root found, collection.find id = (root, found) := ⟨_, _, rfl⟩
  have moves := moves_findFrom collection.slots.size id collection
  rw [← find, finds] at moves
  cases renamed : found.isRenamed root with
  | true =>
      obtain ⟨failure, refused⟩ := rename_refused finds renamed new board
      rw [refused]
      exact moves
  | false =>
      have marked := moves_modifySlot found root ({ · with renamed := true })
        (fun _ => rfl) (fun _ => rfl)
      have kept : Ensures (rename id new (board, collection))
          (fun _ final => final.2.slots = (found.modifySlot root ({ · with renamed := true })).slots)
          (fun _ final =>
            final.2.slots = (found.modifySlot root ({ · with renamed := true })).slots) := by
        rw [rename_run finds renamed]
        apply Ensures.bind
        refine (Ensures.forM (fun state : Board × Collection => state.2.slots = _) ?_ rfl).mono ?_
          (fun _ _ same => same)
        · exact fun network _ state same => same
        · intro _ state same
          refine Ensures.forM (fun state : Board × Collection => state.2.slots = _) ?_ same
          intro point _ state same
          refine (ensures_renamePoint new point state).mono ?_ ?_
          · exact fun _ final unchanged => unchanged.2 ▸ same
          · exact fun _ final unchanged => unchanged.2 ▸ same
      exact kept.mono
        (fun _ final same => (moves.trans marked).trans (moves_of_slots_eq same))
        (fun _ final same => (moves.trans marked).trans (moves_of_slots_eq same))

/-- An operation on identities that were created moves the collection. -/
theorem Balanced.moves_operate
    (balanced : collection.Balanced)
    (sound : collection.Sound)
    {operation : Operation}
    (inScope : ∀ id ∈ operation.ids, id < collection.slots.size) :
    Moves collection (collection.operate operation) := by
  cases operation with
  | rename board id new =>
      have moves := ensures_rename_moves collection board id new
      rw [operate]
      generalize rename id new (board, collection) = result at moves ⊢
      cases result with
      | ok _ final => exact moves
      | error _ final => exact moves
  | call made =>
      cases made with
      | newGroup => exact .single .newGroup
      | find id => exact moves_findFrom ..
      | group id => exact moves_findFrom ..
      | lookup network => exact moves_lookup network collection
      | groups => exact .refl
      | addNetwork id network =>
          exact balanced.moves_addNetwork sound (inScope id (by simp [Operation.ids, Call.ids]))
            network
      | addPoint id point =>
          exact (moves_findFrom ..).trans
            (moves_modifySlot _ _ _ (fun _ => rfl) (fun _ => rfl))
      | merge first second =>
          exact balanced.moves_merge (inScope first (by simp [Operation.ids, Call.ids]))
            (inScope second (by simp [Operation.ids, Call.ids]))

theorem balanced_empty
    (signal : Signal) :
    Balanced { signal := signal } where
  rooted := fun id => ⟨0, id, .root rfl⟩
  rank_lt := fun _ isChild => absurd rfl isChild
  two_pow_rank_le := fun root inRange => absurd inRange (Nat.not_lt_zero root)

theorem Balanced.operateAll
    (balanced : collection.Balanced)
    (sound : collection.Sound)
    {signal : Signal}
    (neat : collection.Neat signal)
    {operations : List Operation}
    (inScope : Operation.InScope collection.slots.size operations) :
    (collection.operateAll operations).Balanced := by
  induction operations generalizing collection with
  | nil =>
      exact balanced
  | cons operation rest inductionHypothesis =>
      obtain ⟨here, onward⟩ := inScope
      obtain ⟨step, sizeEq⟩ := sound.step_operate neat here
      exact inductionHypothesis ((balanced.moves_operate sound here).balanced balanced)
        (step.sound sound) (step.neat neat) (sizeEq ▸ onward)

/-- After any operations, ranks grow toward the roots and a root represents at least two to its rank
many identities. No way to a root comes back or has more links than the logarithm of the number of
identities. Looking up keeps this in every round, and ends at a root after so many rounds. -/
theorem operateAll_balanced
    (signal : Signal)
    {operations : List Operation}
    (inScope : Operation.InScope 0 operations)
    {collection : Collection}
    (reached : operateAll { signal := signal } operations = collection) :
    collection.Balanced ∧
      (∀ id links, collection.parent^[links + 1] id = id → collection.parent id = id) ∧
      ∀ id < collection.slots.size,
        (∃ links ≤ Nat.log 2 collection.slots.size,
          ∃ root < collection.slots.size, collection.Leads links id root) ∧
        (∀ rounds, (findFrom rounds id collection).2.Balanced) ∧
        ∀ rounds ≥ Nat.log 2 collection.slots.size,
          findFrom rounds id collection = collection.find id ∧
            collection.parent (collection.find id).1 = (collection.find id).1 := by
  have balanced : collection.Balanced := by
    rw [← reached]
    exact (balanced_empty signal).operateAll (sound_empty signal) (neat_empty signal) inScope
  refine ⟨balanced, fun id links => balanced.parent_eq_of_iterate_eq, ?_⟩
  intro id inRange
  obtain ⟨links, leads⟩ := balanced.rooted.leads_root id
  have few := balanced.links_le_log inRange leads
  refine ⟨⟨links, few, _, balanced.root_lt inRange leads, leads⟩, ?_, ?_⟩
  · intro rounds
    exact (moves_findFrom rounds id collection).balanced balanced
  · intro rounds enough
    exact ⟨findFrom_eq_of_leads leads (Nat.le_trans few enough) leads.le_size,
      balanced.rooted.parent_root id⟩

/-- Four groups that are merged in pairs, so that the last root has a rank of two, and one of which
is renamed. -/
theorem operateAll_balanced_pairs :
    let operations : List Operation := [.call .newGroup, .call .newGroup, .call .newGroup,
      .call .newGroup, .call (.merge 0 1), .call (.merge 2 3), .call (.merge 1 3),
      .rename {} 3 .control, .call (.find 3)]
    let collection := operateAll { signal := .value } operations
    Operation.InScope 0 operations ∧ collection.rank 0 = 2 ∧
      2 ^ 2 ≤ (collection.represented 0).card ∧
      ∃ links ≤ 2, ∃ root < 4, collection.Leads links 3 root := by
  intro operations collection
  have inScope : Operation.InScope 0 operations := by decide
  have size : collection.slots.size = 4 := by decide +kernel
  have rankEq : collection.rank 0 = 2 := by decide +kernel
  have isRoot : collection.parent 0 = 0 := by decide +kernel
  have log : Nat.log 2 4 = 2 := by decide
  obtain ⟨balanced, -, ways⟩ := operateAll_balanced .value inScope rfl
  obtain ⟨way, -⟩ := ways 3 (by decide +kernel)
  have enough := balanced.two_pow_rank_le 0 (by decide +kernel) isRoot
  rw [rankEq] at enough
  rw [size, log] at way
  exact ⟨inScope, rankEq, enough, way⟩

end CircuitNetwork.Collection
