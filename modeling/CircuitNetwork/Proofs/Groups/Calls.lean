import CircuitNetwork.Proofs.Groups.Neat
import Mathlib.Logic.Relation

namespace CircuitNetwork.Collection

/-!
# Calls on collections

Calls are made on a collection one after another. Its identities are in the
classes that the merges generate, together with the networks that were added to
more than one identity, and a group has what was added to its class.
-/

/-- A call on a collection. -/
inductive Call where
  | newGroup
  | find (id : Nat)
  | group (id : Nat)
  | lookup (network : Option Nat)
  | groups
  | addNetwork (id : Nat) (network : Option Nat)
  | addPoint (id : Nat) (point : Option Endpoint)
  | merge (first second : Nat)
  deriving DecidableEq

/-- What a call gives back. -/
inductive Answer where
  | identity (id : Nat)
  | group (group : Group)
  | home (root : Option Nat)
  | groups (groups : List Group)
  | nothing
  deriving DecidableEq

namespace Call

/-- The identities that a call is given. -/
def ids : Call → List Nat
  | find id | group id | addNetwork id _ | addPoint id _ => [id]
  | merge first second => [first, second]
  | newGroup | lookup _ | groups => []

/-- The number of identities that a call creates. -/
def created : Call → Nat
  | newGroup => 1
  | _ => 0

/-- Whether a call only looks something up. -/
def isLookup : Call → Bool
  | find _ | group _ | lookup _ | groups => true
  | _ => false

/-- Calls that are given only identities that were created before. -/
def InScope : Nat → List Call → Prop
  | _, [] => True
  | count, call :: rest => (∀ id ∈ call.ids, id < count) ∧ InScope (count + call.created) rest

/-- Two identities are merged, or one network is added to both. -/
inductive Links (calls : List Call) : Nat → Nat → Prop where
  | merge {first second : Nat}
      (merged : .merge first second ∈ calls) :
      Links calls first second
  | network {first second network : Nat}
      (toFirst : .addNetwork first (some network) ∈ calls)
      (toSecond : .addNetwork second (some network) ∈ calls) :
      Links calls first second

end Call

/-- Make a call. -/
def perform (collection : Collection) : Call → Answer × Collection
  | .newGroup => collection.newGroup.map .identity id
  | .find asked => (collection.find asked).map .identity id
  | .group asked => (collection.group asked).map .group id
  | .lookup network => (collection.lookup network).map .home id
  | .groups => (.groups collection.groups, collection)
  | .addNetwork asked network => (collection.addNetwork asked network).map .identity id
  | .addPoint asked point => (.nothing, collection.addPoint asked point)
  | .merge first second => (collection.merge first second).map .identity id

/-- Make calls one after another. -/
def run (collection : Collection) (calls : List Call) : Collection :=
  calls.foldl (fun before call => (before.perform call).2) collection

/-- What calls give back, one after another. -/
def answers : Collection → List Call → List Answer
  | _, [] => []
  | collection, call :: rest =>
      (collection.perform call).1 :: answers (collection.perform call).2 rest

/-! ## Classes -/

open Call Relation

/-- A collection after calls. -/
structure Refines (signal : Signal) (calls : List Call) (collection : Collection) : Prop where
  wellformed : collection.Wellformed
  neat : collection.Neat signal
  inRange : ∀ call ∈ calls, ∀ id ∈ call.ids, id < collection.slots.size
  root_iff : ∀ first second,
    collection.root first = collection.root second ↔ EqvGen (Links calls) first second
  home_iff : ∀ network root, collection.home network = some root ↔
    ∃ id, .addNetwork id (some network) ∈ calls ∧ collection.root id = root
  hasPoint_iff : ∀ id point, collection.HasPoint id point ↔
    ∃ asked, .addPoint asked point ∈ calls ∧ collection.root asked = collection.root id

variable {signal : Signal} {collection other : Collection} {calls : List Call}

theorem refines_empty
    (signal : Signal) :
    Refines signal [] { signal := signal } := by
  have rootEq (id : Nat) : root { signal := signal } id = id := rfl
  refine ⟨⟨?_, ?_, ?_, ?_, fun _ => rfl⟩, ⟨rfl, ?_⟩, ?_, ?_, ?_, ?_⟩
  · intro id
    exact ⟨0, id, .root rfl⟩
  · intro id inRange
    exact absurd inRange (Nat.not_lt_zero id)
  · intro network id found
    cases found
  · intro id _ network
    simp [groupAt, home]
  · intro id slot found
    simp at found
  · intro call member
    cases member
  · intro first second
    rw [rootEq, rootEq]
    constructor
    · rintro rfl
      exact .refl first
    · intro related
      induction related with
      | rel one two link => cases link <;> contradiction
      | refl one => rfl
      | symm one two _ same => exact same.symm
      | trans one two three _ _ first second => exact first.trans second
  · intro network root
    simp [home]
  · intro id point
    simp [HasPoint, groupAt]

/-- A function whose classes are the generated ones tells apart no less than its links do. -/
theorem root_eq_of_eqvGen
    {Linked : Nat → Nat → Prop}
    (kept : ∀ first second, Linked first second → collection.root first = collection.root second)
    {first second : Nat}
    (related : EqvGen Linked first second) :
    collection.root first = collection.root second := by
  induction related with
  | rel one two link => exact kept one two link
  | refl one => rfl
  | symm one two _ same => exact same.symm
  | trans one two three _ _ toTwo toThree => exact toTwo.trans toThree

/-- Identities of the two groups have one root. -/
theorem Fused.joined
    {one two root : Nat}
    (fused : Fused collection other (collection.root one) (collection.root two) root) :
    other.root one = other.root two := by
  rw [fused.root_eq, fused.root_eq, if_pos (.inl rfl), if_pos (.inr rfl)]

theorem Links.mono
    {more : List Call}
    (subset : calls ⊆ more)
    {first second : Nat}
    (links : Links calls first second) :
    Links more first second := by
  cases links with
  | merge merged => exact .merge (subset merged)
  | network toFirst toSecond => exact .network (subset toFirst) (subset toSecond)

/-- Identities that are linked after one more call were linked before, or the call links them. -/
theorem links_concat_cases
    {call : Call}
    {first second : Nat}
    (links : Links (calls ++ [call]) first second) :
    Links calls first second ∨ call = .merge first second ∨
      ∃ id network, call = .addNetwork id (some network) ∧
        ∀ asked ∈ [first, second], asked = id ∨ .addNetwork asked (some network) ∈ calls := by
  cases links with
  | merge merged =>
      rcases List.mem_append.mp merged with before | isCall
      · exact .inl (.merge before)
      · exact .inr (.inl (List.mem_singleton.mp isCall).symm)
  | @network network toFirst toSecond =>
      simp only [List.mem_append, List.mem_singleton] at toFirst toSecond
      rcases toFirst with firstBefore | isCall
      · rcases toSecond with secondBefore | isCall
        · exact .inl (.network firstBefore secondBefore)
        · exact .inr (.inr ⟨second, network, isCall.symm, by simp [firstBefore]⟩)
      · rw [← isCall, addNetwork.injEq] at toSecond
        exact .inr (.inr ⟨first, network, isCall.symm, by simpa [or_comm] using toSecond⟩)

/-- A call that merges nothing and adds no network links nothing. -/
theorem links_concat_eq
    {call : Call}
    (noMerge : ∀ first second, call ≠ .merge first second)
    (noNetwork : ∀ id network, call ≠ .addNetwork id (some network)) :
    Links (calls ++ [call]) = Links calls := by
  funext first second
  apply propext
  constructor
  · intro links
    rcases links_concat_cases links with before | isMerge | ⟨id, network, isCall, -⟩
    · exact before
    · exact absurd isMerge (noMerge first second)
    · exact absurd isCall (noNetwork id network)
  · exact Links.mono (List.subset_append_left _ _)

namespace Refines

/-- A call in scope is given identities that are still there after it. -/
theorem inRange_concat
    (refines : Refines signal calls collection)
    {call : Call}
    (inScope : ∀ id ∈ call.ids, id < collection.slots.size)
    (size_le : collection.slots.size ≤ other.slots.size) :
    ∀ made ∈ calls ++ [call], ∀ id ∈ made.ids, id < other.slots.size := by
  intro made member id isId
  refine Nat.lt_of_lt_of_le ?_ size_le
  rcases List.mem_append.mp member with before | isNew
  · exact refines.inRange made before id isId
  · rw [List.mem_singleton.mp isNew] at isId
    exact inScope id isId

/-- Identities in one class stay in one class. -/
theorem related_append
    (refines : Refines signal calls collection)
    (more : List Call)
    {first second : Nat}
    (same : collection.root first = collection.root second) :
    EqvGen (Links (calls ++ more)) first second :=
  EqvGen.mono (fun _ _ => Links.mono (List.subset_append_left calls more)) _ _
    ((refines.root_iff first second).mp same)

/-- Linked identities have one root. -/
theorem root_of_links
    (refines : Refines signal calls collection)
    {first second : Nat}
    (links : Links calls first second) :
    collection.root first = collection.root second :=
  (refines.root_iff first second).mpr (.rel _ _ links)

/-- A call that neither links nor adds anything. -/
theorem quiet
    (refines : Refines signal calls collection)
    {call : Call}
    (inScope : ∀ id ∈ call.ids, id < collection.slots.size)
    (noMerge : ∀ first second, call ≠ .merge first second)
    (noNetwork : ∀ id network, call ≠ .addNetwork id (some network))
    (noPoint : ∀ id point, call ≠ .addPoint id point)
    (wellformed : other.Wellformed)
    (neat : other.Neat signal)
    (size_le : collection.slots.size ≤ other.slots.size)
    (root_eq : ∀ id, other.root id = collection.root id)
    (home_eq : ∀ network, other.home network = collection.home network)
    (hasPoint_iff : ∀ id point, other.HasPoint id point ↔ collection.HasPoint id point) :
    Refines signal (calls ++ [call]) other := by
  have networkIff (id network : Nat) :
      .addNetwork id (some network) ∈ calls ++ [call] ↔
        .addNetwork id (some network) ∈ calls := by
    simp [(noNetwork id network).symm]
  have pointIff (id : Nat) (point : Option Endpoint) :
      .addPoint id point ∈ calls ++ [call] ↔ .addPoint id point ∈ calls := by
    simp [(noPoint id point).symm]
  refine ⟨wellformed, neat, refines.inRange_concat inScope size_le, ?_, ?_, ?_⟩
  · intro first second
    rw [root_eq, root_eq, refines.root_iff, links_concat_eq noMerge noNetwork]
  · intro network root
    simp only [home_eq, refines.home_iff, networkIff, root_eq]
  · intro id point
    simp only [hasPoint_iff, refines.hasPoint_iff, pointIff, root_eq]

/-- A call that only looks something up. -/
theorem of_sameForest
    (refines : Refines signal calls collection)
    {call : Call}
    (inScope : ∀ id ∈ call.ids, id < collection.slots.size)
    (noMerge : ∀ first second, call ≠ .merge first second)
    (noNetwork : ∀ id network, call ≠ .addNetwork id (some network))
    (noPoint : ∀ id point, call ≠ .addPoint id point)
    (neat : other.Neat signal)
    (same : SameForest collection other) :
    Refines signal (calls ++ [call]) other :=
  refines.quiet inScope noMerge noNetwork noPoint (same.wellformed refines.wellformed) neat
    (Nat.le_of_eq same.size_eq.symm) (same.root_eq refines.wellformed.rooted)
    (same.home_eq refines.wellformed.rooted) (same.hasPoint_iff refines.wellformed.rooted)

/-- A call that makes one class of two. -/
theorem fuse
    (refines : Refines signal calls collection)
    {call : Call}
    (inScope : ∀ id ∈ call.ids, id < collection.slots.size)
    (noPoint : ∀ id point, call ≠ .addPoint id point)
    (neat : other.Neat signal)
    {one two root : Nat}
    (fused : Fused collection other (collection.root one) (collection.root two) root)
    (linked : EqvGen (Links (calls ++ [call])) one two)
    (only : ∀ first second, Links (calls ++ [call]) first second →
      other.root first = other.root second)
    (networks : ∀ id network, .addNetwork id (some network) ∈ calls ++ [call] →
      .addNetwork id (some network) ∉ calls →
        ∃ before, .addNetwork before (some network) ∈ calls ∧ other.root before = other.root id) :
    Refines signal (calls ++ [call]) other := by
  have rootEq := fused.root_eq
  have pointIff (id : Nat) (point : Option Endpoint) :
      .addPoint id point ∈ calls ++ [call] ↔ .addPoint id point ∈ calls := by
    simp [(noPoint id point).symm]
  have extended := fused.extends refines.wellformed
  refine ⟨fused.wellformed, neat, refines.inRange_concat inScope extended.size_le, ?_, ?_, ?_⟩
  · intro first second
    constructor
    · intro same
      by_cases already : collection.root first = collection.root second
      · exact refines.related_append [call] already
      · -- Two roots became one, so they are those of the linked identities, in one order or the other.
        have apart : (collection.root first = collection.root one ∧
              collection.root second = collection.root two) ∨
            (collection.root first = collection.root two ∧
              collection.root second = collection.root one) := by
          have isEither := fused.isEither
          rw [rootEq, rootEq] at same
          grind
        rcases apart with ⟨isOne, isTwo⟩ | ⟨isTwo, isOne⟩
        · exact ((refines.related_append [call] isOne).trans _ _ _ linked).trans _ _ _
            (refines.related_append [call] isTwo.symm)
        · exact ((refines.related_append [call] isTwo).trans _ _ _ (linked.symm _ _)).trans _ _ _
            (refines.related_append [call] isOne.symm)
    · exact root_eq_of_eqvGen only
  · intro network home
    constructor
    · intro atHome
      rw [fused.home_eq, Option.map_eq_some_iff] at atHome
      obtain ⟨before, beforeHome, rfl⟩ := atHome
      obtain ⟨id, added, rfl⟩ := (refines.home_iff network before).mp beforeHome
      exact ⟨id, List.mem_append_left _ added, by rw [rootEq]⟩
    · rintro ⟨id, added, rfl⟩
      obtain ⟨before, addedBefore, sameRoot⟩ :
          ∃ before, .addNetwork before (some network) ∈ calls ∧ other.root before = other.root id := by
        by_cases already : .addNetwork id (some network) ∈ calls
        · exact ⟨id, already, rfl⟩
        · exact networks id network added already
      have beforeHome := (refines.home_iff network _).mpr ⟨before, addedBefore, rfl⟩
      rw [extended.home_eq network _ beforeHome, ← sameRoot,
        extended.root_eq _ _ (refines.wellformed.rooted.root_root before)]
  · intro id point
    constructor
    · intro has
      obtain ⟨before, hadPoint, sameRoot⟩ := fused.exists_hasPoint has
      obtain ⟨asked, added, askedRoot⟩ := (refines.hasPoint_iff before point).mp hadPoint
      exact ⟨asked, (pointIff asked point).mpr added,
        (extended.root_eq _ _ askedRoot).trans sameRoot⟩
    · rintro ⟨asked, added, sameRoot⟩
      rw [← hasPoint_congr sameRoot]
      exact extended.hasPoint _ _
        ((refines.hasPoint_iff asked point).mpr ⟨asked, (pointIff asked point).mp added, rfl⟩)

/-- A network is added for the first time. -/
theorem own
    (refines : Refines signal calls collection)
    {id network : Nat}
    (inScope : id < collection.slots.size)
    (homeless : collection.home network = none)
    (wellformed : other.Wellformed)
    (neat : other.Neat signal)
    (size_eq : other.slots.size = collection.slots.size)
    (root_eq : ∀ asked, other.root asked = collection.root asked)
    (home_eq : ∀ asked, other.home asked =
      if asked = network then some (collection.root id) else collection.home asked)
    (hasPoint_iff : ∀ asked point, other.HasPoint asked point ↔ collection.HasPoint asked point) :
    Refines signal (calls ++ [.addNetwork id (some network)]) other := by
  have isNew (asked : Nat) : .addNetwork asked (some network) ∉ calls := by
    intro added
    rw [(refines.home_iff network _).mpr ⟨asked, added, rfl⟩] at homeless
    cases homeless
  refine ⟨wellformed, neat,
    refines.inRange_concat (by simpa [ids] using inScope) (Nat.le_of_eq size_eq.symm), ?_, ?_, ?_⟩
  · intro first second
    constructor
    · intro same
      rw [root_eq, root_eq] at same
      exact refines.related_append _ same
    · refine root_eq_of_eqvGen ?_
      intro one two links
      rw [root_eq, root_eq]
      rcases links_concat_cases links with before | isMerge | ⟨asked, added, isCall, either⟩
      · exact refines.root_of_links before
      · cases isMerge
      · cases isCall
        have isId {asked : Nat} (isEither : asked ∈ [one, two]) : asked = id :=
          (either asked isEither).resolve_right (isNew asked)
        rw [isId (.head _), isId (.tail _ (.head _))]
  · intro asked root
    simp only [home_eq, root_eq, List.mem_append, List.mem_singleton, addNetwork.injEq,
      Option.some.injEq]
    split
    · rename_i isNetwork
      subst isNetwork
      simp [isNew]
    · rename_i notNetwork
      rw [refines.home_iff]
      simp [notNetwork]
  · intro asked point
    simp only [hasPoint_iff, refines.hasPoint_iff, root_eq, List.mem_append, List.mem_singleton,
      reduceCtorEq, or_false]

/-- An endpoint is added. -/
theorem point
    (refines : Refines signal calls collection)
    {id : Nat}
    (inScope : id < collection.slots.size)
    (added : Option Endpoint) :
    Refines signal (calls ++ [.addPoint id added]) (collection.addPoint id added) := by
  obtain ⟨wellformed, sizeEq, rootEq, homeEq, hasPointIff⟩ :=
    refines.wellformed.addPoint_eq inScope added
  refine ⟨wellformed, refines.neat.addPoint id added,
    refines.inRange_concat (by simpa [ids] using inScope) (Nat.le_of_eq sizeEq.symm), ?_, ?_, ?_⟩
  · intro first second
    rw [rootEq, rootEq, refines.root_iff, links_concat_eq (by simp) (by simp)]
  · intro network root
    simp only [homeEq, refines.home_iff, rootEq, List.mem_append, List.mem_singleton, reduceCtorEq,
      or_false]
  · intro asked member
    simp only [hasPointIff, refines.hasPoint_iff, rootEq, List.mem_append, List.mem_singleton,
      addPoint.injEq, or_and_right, exists_or]
    grind

/-- Two classes are merged. -/
theorem merge
    (refines : Refines signal calls collection)
    {first second : Nat}
    (inScope : ∀ id ∈ (Call.merge first second).ids, id < collection.slots.size) :
    Refines signal (calls ++ [.merge first second]) (collection.merge first second).2 ∧
      (collection.merge first second).2.slots.size = collection.slots.size := by
  obtain ⟨root, next, merged, fused⟩ :=
    refines.wellformed.merge_eq (inScope first (by simp [ids])) (inScope second (by simp [ids]))
  have neat := refines.neat.merge first second
  rw [merged] at neat ⊢
  have extended := fused.extends refines.wellformed
  refine ⟨refines.fuse inScope (by simp) neat fused (.rel _ _ (.merge (by simp))) ?_ ?_,
    fused.size_eq⟩
  · intro one two links
    rcases links_concat_cases links with before | isMerge | ⟨id, network, isCall, -⟩
    · exact extended.root_eq _ _ (refines.root_of_links before)
    · cases isMerge
      exact fused.joined
    · cases isCall
  · intro id network added notBefore
    exact absurd (by simpa using added) notBefore

/-- A network is added once more, to another class or to its own. -/
theorem rejoin
    (refines : Refines signal calls collection)
    {id network : Nat}
    (inScope : ∀ asked ∈ (Call.addNetwork id (some network)).ids, asked < collection.slots.size)
    {current : Nat}
    (atHome : collection.home network = some current) :
    Refines signal (calls ++ [.addNetwork id (some network)])
        (collection.addNetwork id (some network)).2 ∧
      (collection.addNetwork id (some network)).2.slots.size = collection.slots.size := by
  obtain ⟨owner, owned, rfl⟩ := (refines.home_iff network current).mp atHome
  obtain ⟨root, next, added, fused⟩ :=
    refines.wellformed.addNetwork_of_home (inScope id (by simp [ids])) atHome
  have neat := refines.neat.addNetwork id (some network)
  rw [added] at neat ⊢
  have extended := fused.extends refines.wellformed
  -- Whatever had the network before is in the class of its owner, which is joined with the new one.
  have known {asked : Nat} (isAdded : .addNetwork asked (some network) ∈ calls) :
      next.root asked = next.root id :=
    (extended.root_eq _ _ (refines.root_of_links (.network isAdded owned))).trans fused.joined
  have toOwner : .addNetwork owner (some network) ∈ calls ++ [.addNetwork id (some network)] :=
    List.mem_append_left _ owned
  refine ⟨refines.fuse inScope (by simp) neat fused (.rel _ _ (.network toOwner (by simp))) ?_ ?_,
    fused.size_eq⟩
  · intro one two links
    rcases links_concat_cases links with before | isMerge | ⟨_, _, isCall, either⟩
    · exact extended.root_eq _ _ (refines.root_of_links before)
    · cases isMerge
    · cases isCall
      have joins {asked : Nat} (isEither : asked ∈ [one, two]) : next.root asked = next.root id := by
        rcases either asked isEither with rfl | before
        · rfl
        · exact known before
      exact (joins (.head _)).trans (joins (.tail _ (.head _))).symm
  · intro asked other isAdded notBefore
    rcases List.mem_append.mp isAdded with before | isNew
    · exact absurd before notBefore
    · cases List.mem_singleton.mp isNew
      exact ⟨owner, owned, fused.joined⟩

/-- A network is added to a class, or none is. -/
theorem addNetwork
    (refines : Refines signal calls collection)
    {id : Nat}
    {network : Option Nat}
    (inScope : ∀ asked ∈ (Call.addNetwork id network).ids, asked < collection.slots.size) :
    Refines signal (calls ++ [.addNetwork id network]) (collection.addNetwork id network).2 ∧
      (collection.addNetwork id network).2.slots.size = collection.slots.size := by
  have inRange := inScope id (by simp [ids])
  have neat := refines.neat.addNetwork id network
  cases network with
  | none =>
      obtain ⟨next, found, same⟩ := refines.wellformed.rooted.find_eq id
      have added : collection.addNetwork id none = (collection.root id, next) := found
      rw [added] at neat ⊢
      exact ⟨refines.of_sameForest inScope (by simp) (by simp) (by simp) neat same, same.size_eq⟩
  | some network =>
      cases atHome : collection.home network with
      | none =>
          obtain ⟨next, added, wellformed, sizeEq, rootEq, homeEq, hasPointIff⟩ :=
            refines.wellformed.addNetwork_of_homeless inRange atHome
          rw [added] at neat ⊢
          exact ⟨refines.own inRange atHome wellformed neat sizeEq rootEq homeEq hasPointIff, sizeEq⟩
      | some current => exact refines.rejoin inScope atHome

/-- Every call that is given identities in scope does what it should to the classes. -/
theorem perform
    (refines : Refines signal calls collection)
    {call : Call}
    (inScope : ∀ id ∈ call.ids, id < collection.slots.size) :
    Refines signal (calls ++ [call]) (collection.perform call).2 ∧
      (collection.perform call).2.slots.size = collection.slots.size + call.created := by
  have wellformed := refines.wellformed
  cases call with
  | newGroup =>
      obtain ⟨wellformedNew, sizeEq, rootEq, homeEq, hasPointIff⟩ := wellformed.newGroup
      exact ⟨refines.quiet inScope (by simp) (by simp) (by simp) wellformedNew refines.neat.newGroup
        (Nat.le.intro sizeEq.symm) rootEq homeEq hasPointIff, sizeEq⟩
  | find id =>
      obtain ⟨next, found, same⟩ := wellformed.rooted.find_eq id
      have neat := refines.neat.find id
      rw [found] at neat
      simp only [Collection.perform, found, Prod.map, id_eq]
      exact ⟨refines.of_sameForest inScope (by simp) (by simp) (by simp) neat same, same.size_eq⟩
  | group id =>
      obtain ⟨next, found, same⟩ := wellformed.rooted.find_eq id
      have neat := refines.neat.find id
      rw [found] at neat
      simp only [Collection.perform, Collection.group, found, Prod.map, id_eq]
      exact ⟨refines.of_sameForest inScope (by simp) (by simp) (by simp) neat same, same.size_eq⟩
  | lookup network =>
      obtain ⟨next, found, same⟩ := wellformed.rooted.lookup_eq network
      have neat := refines.neat.lookup network
      rw [found] at neat
      simp only [Collection.perform, found, Prod.map, id_eq]
      exact ⟨refines.of_sameForest inScope (by simp) (by simp) (by simp) neat same, same.size_eq⟩
  | groups =>
      exact ⟨refines.of_sameForest inScope (by simp) (by simp) (by simp) refines.neat
        (.refl collection), rfl⟩
  | addPoint id added =>
      have inRange := inScope id (by simp [ids])
      exact ⟨refines.point inRange added, (wellformed.addPoint_eq inRange added).2.1⟩
  | merge first second => exact refines.merge inScope
  | addNetwork id network => exact refines.addNetwork inScope

/-- What calls do to the classes. -/
theorem run
    {more : List Call}
    (refines : Refines signal calls collection)
    (inScope : InScope collection.slots.size more) :
    Refines signal (calls ++ more) (collection.run more) := by
  induction more generalizing calls collection with
  | nil =>
      rw [List.append_nil]
      exact refines
  | cons call rest inductionHypothesis =>
      obtain ⟨here, later⟩ := inScope
      obtain ⟨performed, sizeEq⟩ := refines.perform here
      have done := inductionHypothesis performed (sizeEq ▸ later)
      rwa [List.append_assoc] at done

end Refines

end CircuitNetwork.Collection
