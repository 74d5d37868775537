import CircuitNetwork.Proofs.Groups.Neat
import CircuitNetwork.Proofs.Wire.Networks
import CircuitNetwork.Record

namespace CircuitNetwork

/-!
# Groups that can be renamed

If a combinator puts a signal out onto a network where another one reads it, or
passes it through, then both are in one group of the signal. With this a group
can be renamed as a whole. It holds after extraction.
-/

namespace Board

/-- Two endpoints share a network. -/
def Shares (board : Board) (first second : Endpoint) : Prop :=
  ∃ color, board.Joined color first second

/-- A combinator puts a signal out through an endpoint, or reads it there. -/
def Speaks (board : Board) (signal : Signal) (point : Endpoint) : Prop :=
  (point = board.output point.entity ∧ signal ∈ (board.entity point.entity).body.outputs) ∨
    (point = board.input point.entity ∧ signal ∈ (board.entity point.entity).body.operands)

instance decidableSpeaks (board : Board) (signal : Signal) (point : Endpoint) :
    Decidable (board.Speaks signal point) :=
  inferInstanceAs (Decidable (_ ∨ _))

/-- All listed entities are combinators that have a record. -/
def Recorded (board : Board) (entities : List Nat) : Prop :=
  ∀ entity ∈ entities, ∃ record, board.record entity = .ok (some record)

theorem isConnected_of_record
    {board : Board}
    {entity : Nat}
    {record : Record}
    (recorded : board.record entity = .ok (some record)) :
    (board.entity entity).body.isCombinator = true ∧
      ∀ required ∈ requiredPorts (board.entity entity).body,
        board.isConnected ⟨entity, required.1⟩ = true := by
  simp only [Board.record] at recorded
  split at recorded
  · cases recorded
  · rename_i allWired
    split at recorded
    · rename_i combinator
      simp only [List.find?_eq_none, Bool.not_eq_true, Bool.not_eq_false'] at allWired
      exact ⟨combinator, allWired⟩
    · cases recorded

theorem recorded_of_isConnected
    {board : Board}
    {entities : List Nat}
    (wired : ∀ entity ∈ entities, (board.entity entity).body.isCombinator = true ∧
      ∀ required ∈ requiredPorts (board.entity entity).body,
        board.isConnected ⟨entity, required.1⟩ = true) :
    board.Recorded entities := by
  intro entity listed
  obtain ⟨combinator, connected⟩ := wired entity listed
  have allWired : ((requiredPorts (board.entity entity).body).find? fun required =>
      !board.isConnected ⟨entity, required.1⟩) = none := by
    simpa using fun port complaint => connected (port, complaint)
  simp [Board.record, allWired, combinator]

theorem Recorded.isCombinator
    {board : Board}
    {entities : List Nat}
    (recorded : board.Recorded entities)
    {entity : Nat}
    (listed : entity ∈ entities) :
    (board.entity entity).body.isCombinator = true := by
  obtain ⟨record, isRecord⟩ := recorded entity listed
  exact (isConnected_of_record isRecord).1

/-- All endpoints that a listed combinator uses are connected. -/
theorem Recorded.isConnected
    {board : Board}
    {entities : List Nat}
    (recorded : board.Recorded entities)
    {point : Endpoint}
    (listed : point.entity ∈ entities)
    {signal : Signal}
    (speaks : board.Speaks signal point) :
    board.isConnected point = true := by
  obtain ⟨record, isRecord⟩ := recorded point.entity listed
  have wired := (isConnected_of_record isRecord).2
  obtain ⟨entity, port⟩ := point
  simp only [Speaks, Board.output, Board.input, Endpoint.mk.injEq, true_and] at speaks wired
  cases body : (board.entity entity).body with
  | constant isOn filters =>
      rw [body] at wired speaks
      have isOne : port = .one := speaks.elim (·.1) (·.1)
      exact isOne ▸ wired (.one, "no wire connected") (by simp [requiredPorts])
  | decider condition =>
      rw [body] at wired
      cases port with
      | one => exact wired (.one, "input not connected") (by simp [requiredPorts])
      | two => exact wired (.two, "output not connected") (by simp [requiredPorts])
  | arithmetic condition =>
      rw [body] at wired
      cases port with
      | one => exact wired (.one, "input not connected") (by simp [requiredPorts])
      | two => exact wired (.two, "output not connected") (by simp [requiredPorts])
  | fixture name =>
      simp [body, Body.outputs, Body.operands] at speaks

end Board

namespace Collection

/-- The group of an identity was not renamed. -/
def Live (collection : Collection) (id : Nat) : Prop :=
  collection.isRenamed (collection.root id) = false

end Collection

/-- Endpoints that use a signal, together with whatever exchanges the signal with one of them. -/
structure Closed
    (board : Board)
    (entities : List Nat)
    (signal : Signal)
    (points : List (Option Endpoint)) :
    Prop where
  speaks : ∀ point ∈ points,
    ∃ member, point = some member ∧ member.entity ∈ entities ∧ board.Speaks signal member
  reader : ∀ producer ∈ entities, ∀ reader ∈ entities,
    signal ∈ (board.entity producer).body.outputs → signal ∈ (board.entity reader).body.operands →
      board.Shares (board.output producer) (board.input reader) →
        (some (board.output producer) ∈ points ↔ some (board.input reader) ∈ points)
  through : ∀ producer ∈ entities, ∀ passer ∈ entities,
    signal ∈ (board.entity producer).body.outputs → signal ∈ (board.entity passer).body.outputs →
      (board.entity passer).body.passThrough = true →
        board.Shares (board.output producer) (board.input passer) →
          (some (board.output producer) ∈ points ↔ some (board.output passer) ∈ points)

/-- Each group of a signal can be renamed without the others. -/
structure Consistent
    (board : Board)
    (entities : List Nat)
    (signal : Signal)
    (collection : Collection) :
    Prop where
  neat : collection.Neat signal
  rooted : collection.Rooted
  single : ∀ id asked point, collection.HasPoint id point → collection.HasPoint asked point →
    collection.root id = collection.root asked
  closed : ∀ id, collection.Live id →
    Closed board entities signal (collection.groupAt (collection.root id)).points

namespace SignalGroups

open Collection

variable {board : Board} {entities : List Nat} {signal : Signal} {collection : Collection}

/-- All endpoints that were grouped are connected. -/
theorem Extracted.speaks
    (extracted : Extracted board entities signal collection)
    {id : Nat}
    {point : Option Endpoint}
    (has : collection.HasPoint id point) :
    ∃ member, point = some member ∧ member.entity ∈ entities ∧ board.Speaks signal member := by
  obtain ⟨member, rfl, entity, listed, use⟩ := extracted.grouped.belongs id point has
  rcases use with ⟨rfl, puts⟩ | ⟨rfl, -, reads⟩
  · exact ⟨_, rfl, listed, .inl ⟨rfl, puts⟩⟩
  · exact ⟨_, rfl, listed, .inr ⟨rfl, reads⟩⟩

theorem Extracted.single
    (extracted : Extracted board entities signal collection)
    (recorded : board.Recorded entities)
    {id asked : Nat}
    {point : Option Endpoint}
    (has : collection.HasPoint id point)
    (alsoHas : collection.HasPoint asked point) :
    collection.root id = collection.root asked := by
  obtain ⟨member, rfl, listed, speaks⟩ := extracted.speaks has
  exact extracted.grouped.single id asked member has alsoHas (recorded.isConnected listed speaks)

/-- Endpoints in the group of one network are in the same groups. -/
theorem Extracted.hasPoint_iff_of_meets
    (extracted : Extracted board entities signal collection)
    (recorded : board.Recorded entities)
    {first second : Endpoint}
    {network : Nat}
    (firstMeets : collection.Meets first network)
    (secondMeets : collection.Meets second network)
    (id : Nat) :
    collection.HasPoint id (some first) ↔ collection.HasPoint id (some second) := by
  obtain ⟨one, oneHas, oneHome⟩ := firstMeets
  obtain ⟨two, twoHas, twoHome⟩ := secondMeets
  have same : collection.root one = collection.root two :=
    Option.some.inj (oneHome.symm.trans twoHome)
  constructor
  · intro has
    have toOne := extracted.single recorded has oneHas
    exact (hasPoint_congr (toOne.trans same) _).mpr twoHas
  · intro has
    have toTwo := extracted.single recorded has twoHas
    exact (hasPoint_congr (toTwo.trans same.symm) _).mpr oneHas

/-- Endpoints that share a network share it as one to which the endpoints are attached. -/
theorem exists_attached_of_shares
    {first second : Endpoint}
    (shares : board.Shares first second) :
    ∃ network, board.Attached first network ∧ board.Attached second network := by
  obtain ⟨color, network, firstFound, secondFound⟩ := shares
  exact ⟨network, ⟨color, firstFound⟩, ⟨color, secondFound⟩⟩

/-- The output of a combinator that passes a signal through is in the group of its input. -/
theorem Extracted.meets_passer
    (extracted : Extracted board entities signal collection)
    (recorded : board.Recorded entities)
    {passer : Nat}
    (isPasser : passer ∈ entities)
    (passes : board.Passes passer signal)
    {network : Nat}
    (attached : board.Attached (board.input passer) network)
    (produced : board.Produced entities signal network) :
    collection.Meets (board.output passer) network := by
  obtain ⟨exit, attachedExit⟩ := Board.isConnected_iff.mp
    (recorded.isConnected (show (board.output passer).entity ∈ entities from isPasser)
      (.inl ⟨rfl, passes.output⟩))
  obtain ⟨id, has, atHome⟩ :=
    (extracted.producer passer isPasser passes.output).meets exit attachedExit trivial
  obtain ⟨root, networkHome, exitHome⟩ := ((extracted.received passer isPasser).through passes).2
    network exit attached attachedExit produced ⟨passer, isPasser, passes.output, attachedExit⟩
  refine ⟨id, has, ?_⟩
  rw [networkHome, ← exitHome, atHome]

/-- Extracted groups can be renamed. -/
theorem Extracted.consistent
    (extracted : Extracted board entities signal collection)
    (neat : collection.Neat signal)
    (recorded : board.Recorded entities)
    (tame : ∀ entity ∈ entities, ¬board.Wild entity) :
    Consistent board entities signal collection where
  neat := neat
  rooted := extracted.grouped.wellformed.rooted
  single := fun _ _ _ has alsoHas => extracted.single recorded has alsoHas
  closed := by
    intro id _
    constructor
    · intro point has
      exact extracted.speaks has
    · intro producer isProducer reader isReader puts reads shares
      obtain ⟨network, attachedOut, attachedIn⟩ := exists_attached_of_shares shares
      have producerMeets :=
        (extracted.producer producer isProducer puts).meets network attachedOut trivial
      have readerMeets :=
        ((extracted.received reader isReader).reader (tame reader isReader) reads).meets network
          attachedIn ⟨producer, isProducer, puts, attachedOut⟩
      exact extracted.hasPoint_iff_of_meets recorded producerMeets readerMeets id
    · intro producer isProducer passer isPasser puts passes passThrough shares
      obtain ⟨network, attachedOut, attachedIn⟩ := exists_attached_of_shares shares
      have producerMeets :=
        (extracted.producer producer isProducer puts).meets network attachedOut trivial
      have passerMeets := extracted.meets_passer recorded isPasser
        ⟨passThrough, tame passer isPasser, passes⟩ attachedIn
        ⟨producer, isProducer, puts, attachedOut⟩
      exact extracted.hasPoint_iff_of_meets recorded producerMeets passerMeets id

end SignalGroups

end CircuitNetwork
