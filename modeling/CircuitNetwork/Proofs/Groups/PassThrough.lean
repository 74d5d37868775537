import CircuitNetwork.Proofs.Groups.Exactness
import CircuitNetwork.Proofs.Groups.Sequence

namespace CircuitNetwork

/-!
# Combinators that pass a signal through

A decider that copies a signal puts the count out that it reads, so the signal
has one name before and behind it. Without wildcard operand, the networks at its
input and output are in one group, and no renamings can take them apart: a
failure does not leave one of them renamed either.
-/

namespace Collection

/-- Two networks are in the same groups of a signal. -/
structure Tied (signal : Signal) (first second : Nat) (collection : Collection) : Prop where
  rooted : collection.Rooted
  neat : collection.Neat signal
  mem_networks_iff : ∀ id,
    first ∈ (collection.groupAt (collection.root id)).networks ↔
      second ∈ (collection.groupAt (collection.root id)).networks
  home_eq : collection.home first = collection.home second

namespace Tied

variable {collection later : Collection} {signal : Signal} {first second : Nat}

theorem of_sameForest
    (tied : Tied signal first second collection)
    (same : SameForest collection later) :
    Tied signal first second later where
  rooted := same.rooted tied.rooted
  neat := tied.neat.of_sameForest same
  mem_networks_iff := by
    simpa only [same.root_eq tied.rooted, same.groupAt_eq] using tied.mem_networks_iff
  home_eq := by
    rw [same.home_eq tied.rooted, same.home_eq tied.rooted, tied.home_eq]

/-- Both networks leave with a renamed group, or none of them. -/
theorem of_retired
    (tied : Tied signal first second collection)
    {id : Nat}
    (retired : Retired collection later (collection.root id)) :
    Tied signal first second later where
  rooted := retired.rooted
  neat := retired.neat signal tied.neat
  mem_networks_iff := by
    simpa only [retired.root_eq, retired.groupAt_eq] using tied.mem_networks_iff
  home_eq := by
    simp only [retired.home_eq, tied.mem_networks_iff id, tied.home_eq]

end Tied

end Collection

namespace Board

/-- A signal was replaced on some networks. -/
def ReplacedOn (board other : Board) (old new : Signal) (networks : List Nat) : Prop :=
  ∀ network ∈ networks, other.networks[network]? =
    board.networks[network]?.map fun carried =>
      { carried with signals := carried.signals.replace old new }

/-- A signal was replaced on all of some networks, or all of them stayed as they are. -/
def ChangedAlike (board other : Board) (old new : Signal) (networks : List Nat) : Prop :=
  board.ReplacedOn other old new networks ∨
    ∀ network ∈ networks, other.networks[network]? = board.networks[network]?

instance decidableChangedAlike
    (board other : Board)
    (old new : Signal)
    (networks : List Nat) :
    Decidable (board.ChangedAlike other old new networks) :=
  inferInstanceAs (Decidable ((∀ network ∈ networks, _ = _) ∨ ∀ network ∈ networks, _ = _))

end Board

namespace Collection

open Board

variable {board : Board} {collection : Collection} {signal : Signal} {first second : Nat}

theorem Tied.changedAlike
    (tied : Tied signal first second collection)
    {id : Nat}
    {new : Signal}
    {final : Board × Collection}
    (withdrawn : Withdrawn board collection (collection.root id) new final) :
    board.ChangedAlike final.1 signal new [first, second] := by
  have changed := withdrawn.network_eq
  rw [tied.neat.signal_eq] at changed
  by_cases inside : first ∈ (collection.groupAt (collection.root id)).networks
  · left
    simp [ReplacedOn, changed, inside, (tied.mem_networks_iff id).mp inside]
  · right
    simp [changed, inside, mt (tied.mem_networks_iff id).mpr inside]

end Collection

namespace SignalGroups

open Collection Board

/-- What a request leaves, whether it succeeds or fails. -/
def Request.attempt (state : Board × SignalGroups) (request : Request) : Board × SignalGroups :=
  match request.perform state with
  | .ok _ later => later
  | .error _ later => later

namespace Request

/-- A request for a signal with a collection carries out what the collection does. -/
theorem attempt_of_find?
    {groups : SignalGroups}
    {collection : Collection}
    {request : Request}
    (board : Board)
    (found : groups.find? request.old = some collection) :
    Ensures (Collection.renameNumber request.number request.new (board, collection))
      (fun _ final => attempt (board, groups) request =
        (final.1, groups.insert request.old final.2))
      (fun _ final => attempt (board, groups) request =
        (final.1, groups.insert request.old final.2)) := by
  have ran : request.perform (board, groups) = _ := bind_of_ok rfl
  simp only [found] at ran
  rw [attempt, ran]
  cases renamed : Collection.renameNumber request.number request.new (board, collection) with
  | ok _ final =>
      simp only [EStateM.run, renamed]
      exact rfl
  | error _ final =>
      simp only [EStateM.run, renamed]
      exact rfl

/-- A request does nothing to the board and the groups, or it renames a group of its signal. -/
theorem attempt_cases
    (request : Request)
    (board : Board)
    (groups : SignalGroups) :
    (attempt (board, groups) request).1 = board ∧
        (∀ signal, (attempt (board, groups) request).2.collection signal =
          groups.collection signal) ∨
      ∃ id, Ensures (Collection.rename id request.new (board, groups.collection request.old))
        (fun _ final => attempt (board, groups) request =
          (final.1, groups.insert request.old final.2))
        (fun _ final => attempt (board, groups) request =
          (final.1, groups.insert request.old final.2)) := by
  cases found : groups.find? request.old with
  | none =>
      have refused : request.perform (board, groups) = _ := bind_of_ok rfl
      simp only [found] at refused
      rw [attempt, refused]
      exact .inl ⟨rfl, fun _ => rfl⟩
  | some collection =>
      have attempted := attempt_of_find? board found
      rw [show Collection.renameNumber request.number request.new (board, collection) = _ from
        bind_of_ok rfl] at attempted
      rw [collection_of_find? found]
      cases isId : collection.id? request.number with
      | none =>
          simp only [isId] at attempted
          have unchanged : attempt (board, groups) request =
            (board, groups.insert request.old collection) := attempted
          rw [unchanged]
          refine .inl ⟨rfl, ?_⟩
          intro signal
          refine (collection_insert ..).trans ?_
          split
          · rename_i isOld
            rw [isOld, collection_of_find? found]
          · rfl
      | some id =>
          simp only [isId] at attempted
          exact .inr ⟨id, attempted⟩

end Request

variable {board : Board} {entities : List Nat} {signal : Signal} {first second : Nat}

/-- A request keeps tied networks together, on the board as in the groups. -/
theorem tied_attempt
    {state : Board × SignalGroups}
    (tied : Tied signal first second (state.2.collection signal))
    (request : Request) :
    Tied signal first second ((request.attempt state).2.collection signal) ∧
      (request.old = signal →
        state.1.ChangedAlike (request.attempt state).1 signal request.new [first, second]) := by
  obtain ⟨board, groups⟩ := state
  rcases request.attempt_cases board groups with ⟨sameBoard, sameCollection⟩ | ⟨id, attempted⟩
  · rw [sameBoard, sameCollection]
    exact ⟨tied, fun _ => .inr fun _ _ => rfl⟩
  · by_cases isSignal : request.old = signal
    · subst isSignal
      have renamed := ensures_rename tied.rooted tied.neat board id request.new
      -- The networks are renamed before the endpoints, so a failure at an endpoint comes too late to
      -- leave one of the networks out.
      have kept (final : Board × Collection)
          (left : request.attempt (board, groups) = (final.1, groups.insert request.old final.2))
          (outcome : final.1 = board ∧ SameForest (groups.collection request.old) final.2 ∨
            Withdrawn board (groups.collection request.old)
              ((groups.collection request.old).root id) request.new final) :
          Tied request.old first second
              ((request.attempt (board, groups)).2.collection request.old) ∧
            board.ChangedAlike (request.attempt (board, groups)).1 request.old request.new
              [first, second] := by
        rw [left, collection_insert, if_pos rfl]
        rcases outcome with ⟨sameBoard, same⟩ | withdrawn
        · exact ⟨tied.of_sameForest same, .inr fun _ _ => by rw [sameBoard]⟩
        · exact ⟨tied.of_retired withdrawn.retired, tied.changedAlike withdrawn⟩
      obtain ⟨stillTied, alike⟩ := (attempted.and renamed).elim
        (fun _ final ⟨left, withdrawn⟩ => kept final left (.inr withdrawn))
        (fun _ final ⟨left, outcome⟩ => kept final left outcome)
      exact ⟨stillTied, fun _ => alike⟩
    · refine ⟨?_, fun isOld => absurd isOld isSignal⟩
      have other (final : Board × Collection)
          (left : request.attempt (board, groups) = (final.1, groups.insert request.old final.2)) :
          Tied signal first second ((request.attempt (board, groups)).2.collection signal) := by
        rw [left, collection_insert, if_neg (Ne.symm isSignal)]
        exact tied
      exact attempted.elim (fun _ => other) (fun _ => other)

/-- Requests keep tied networks together. -/
theorem tied_attempts
    (requests : List Request)
    {state : Board × SignalGroups}
    (tied : Tied signal first second (state.2.collection signal)) :
    Tied signal first second ((requests.foldl Request.attempt state).2.collection signal) := by
  induction requests generalizing state with
  | nil => exact tied
  | cons request rest inductionHypothesis => exact inductionHypothesis (tied_attempt tied request).1

/-- Networks of one extracted group are in no group without each other. -/
theorem Extracted.tied
    {collection : Collection}
    (extracted : Extracted board entities signal collection)
    (neat : collection.Neat signal)
    (together : collection.Together first second) :
    Tied signal first second collection := by
  obtain ⟨root, firstHome, secondHome⟩ := together
  have wellformed := extracted.grouped.wellformed
  refine ⟨wellformed.rooted, neat, ?_, firstHome.trans secondHome.symm⟩
  intro id
  have isRoot := wellformed.rooted.parent_root id
  rw [wellformed.mem_networks_iff _ isRoot, wellformed.mem_networks_iff _ isRoot, firstHome,
    secondHome]

/-- A combinator without wildcard operand that passes a signal through has the networks at its output
in the group of the networks at its input that carry the signal. Renaming the group renames all of
them, and no requests can rename one without the other. -/
theorem passThrough_renamed_together
    (combinators : ∀ entity ∈ entities, (board.entity entity).body.isCombinator = true)
    {passer : Nat}
    (isPasser : passer ∈ entities)
    (passes : board.Passes passer signal)
    {entry exit : Nat}
    (enters : board.Attached (board.input passer) entry)
    (produced : board.Produced entities signal entry)
    (leaves : board.Attached (board.output passer) exit) :
    ∃ groups collection, extract board entities = .ok groups ∧
      groups.find? signal = some collection ∧
      (∃ group ∈ collection.groups,
        (∀ network ∈ [entry, exit], network ∈ group.networks ∧
          (collection.lookup (some network)).1 = some group.id) ∧
        ∀ new, ∃ other later, rename group.id signal new (board, groups) = .ok () (other, later) ∧
          board.ReplacedOn other signal new [entry, exit]) ∧
      ∀ requests : List Request,
        let state := requests.foldl Request.attempt (board, groups)
        ((state.2.collection signal).lookup (some entry)).1 =
            ((state.2.collection signal).lookup (some exit)).1 ∧
          ∀ number new, state.1.ChangedAlike (Request.attempt state ⟨number, signal, new⟩).1
            signal new [entry, exit] := by
  obtain ⟨groups, extracts, extractedAll⟩ := exists_extract_eq combinators
  have extracted := extractedAll signal
  have neat := allNeat_extract extracts signal
  have together := ((extracted.received passer isPasser).through passes).2 entry exit enters leaves
    produced ⟨passer, isPasser, passes.output, leaves⟩
  obtain ⟨root, entryHome, exitHome⟩ := together
  obtain ⟨collection, found⟩ : ∃ collection, groups.find? signal = some collection :=
    Option.isSome_iff_exists.mp ((SignalMap.mem_keys_iff ..).mp
      (mem_keys_of_home (by rw [entryHome]; rfl)))
  refine ⟨groups, collection, extracts, found, ?_, ?_⟩
  · rw [collection_of_find? found] at extracted neat entryHome exitHome
    have wellformed := extracted.grouped.wellformed
    have isRoot := wellformed.home_mem_roots entryHome
    have members : [entry, exit] ⊆ (collection.groupAt root).networks := by
      simp [extracted.mem_networks_iff isRoot, entryHome, exitHome]
    refine ⟨collection.groupAt root, groups_eq collection ▸ List.mem_map_of_mem isRoot, ?_⟩
    rw [(neat.groupAt root).id_eq]
    refine ⟨?_, ?_⟩
    · intro network isNetwork
      refine ⟨members isNetwork, ?_⟩
      rw [wellformed.rooted.lookup_fst_eq]
      exact (extracted.mem_networks_iff isRoot).mp (members isNetwork)
    · intro new
      obtain ⟨other, later, renamed, replaced, -⟩ := extracted.rename_eq neat found isRoot new
      refine ⟨other, groups.insert signal later, renamed, ?_⟩
      intro network isNetwork
      rw [replaced.network_eq, if_pos (members isNetwork)]
  · intro requests state
    have tied : Tied signal entry exit (state.2.collection signal) :=
      tied_attempts requests (extracted.tied neat ⟨root, entryHome, exitHome⟩)
    refine ⟨?_, ?_⟩
    · rw [tied.rooted.lookup_fst_eq, tied.rooted.lookup_fst_eq]
      exact tied.home_eq
    · intro number new
      exact (tied_attempt tied ⟨number, signal, new⟩).2 rfl

/-- A constant, a decider that copies it if a condition holds of a signal, and a decider. -/
def copied (condition : Signal) : Board :=
  chain (.decider
    { first := condition, second := .constant 0, comparator := .greater, output := .value,
      copyCount := true })

/-- The value is renamed on both sides of the decider that compares it. -/
theorem passThrough_renamed_together_copied :
    ∃ groups collection, extract (copied .value) [0, 1, 2] = .ok groups ∧
      groups.find? .value = some collection ∧
      (∃ group ∈ collection.groups, 0 ∈ group.networks ∧ 1 ∈ group.networks ∧
        ∀ new, ∃ other later,
          rename group.id .value new (copied .value, groups) = .ok () (other, later) ∧
            (copied .value).ReplacedOn other .value new [0, 1]) ∧
      ∀ requests : List Request,
        let state := requests.foldl Request.attempt (copied .value, groups)
        ∀ number new, state.1.ChangedAlike (Request.attempt state ⟨number, .value, new⟩).1
          .value new [0, 1] := by
  have combinators : ∀ entity ∈ [0, 1, 2],
      ((copied .value).entity entity).body.isCombinator = true := by
    decide +kernel
  have passes : (copied .value).Passes 1 .value :=
    ⟨by decide +kernel, by unfold Wild; decide +kernel, by decide +kernel⟩
  have enters : (copied .value).Attached ((copied .value).input 1) 0 := ⟨.red, by decide +kernel⟩
  have leaves : (copied .value).Attached ((copied .value).output 1) 1 := ⟨.red, by decide +kernel⟩
  have produced : (copied .value).Produced [0, 1, 2] .value 0 :=
    ⟨0, by decide, by decide +kernel, .red, by decide +kernel⟩
  obtain ⟨groups, collection, extracts, found, ⟨group, isGroup, members, renames⟩, alike⟩ :=
    passThrough_renamed_together combinators (by decide) passes enters produced leaves
  exact ⟨groups, collection, extracts, found,
    ⟨group, isGroup, (members 0 (by decide)).1, (members 1 (by decide)).1, renames⟩,
    fun requests => (alike requests).2⟩

/-- Behind a decider whose condition is about all signals, the value that it passes through has a
group of its own, and the value before it can be renamed without it. -/
theorem wildcard_passThrough_apart :
    ((copied .everything).entity 1).body.passThrough = true ∧
      .value ∈ ((copied .everything).entity 1).body.outputs ∧
      (copied .everything).Attached ((copied .everything).input 1) 0 ∧
      (copied .everything).Produced [0, 1, 2] .value 0 ∧
      (copied .everything).Attached ((copied .everything).output 1) 1 ∧
      ∃ groups collection, extract (copied .everything) [0, 1, 2] = .ok groups ∧
        groups.find? .value = some collection ∧
        (collection.lookup (some 0)).1 = some 0 ∧ (collection.lookup (some 1)).1 = some 1 ∧
        ¬(copied .everything).ChangedAlike
          (Request.attempt (copied .everything, groups) ⟨0, .value, .virtual "signal-A"⟩).1
          .value (.virtual "signal-A") [0, 1] := by
  refine ⟨by decide +kernel, by decide +kernel, ⟨.red, by decide +kernel⟩,
    ⟨0, by decide, by decide +kernel, .red, by decide +kernel⟩, ⟨.red, by decide +kernel⟩, ?_⟩
  have apart : (extract (copied .everything) [0, 1, 2]).toOption.any (fun groups =>
      (groups.find? .value).any fun collection => decide
        ((collection.lookup (some 0)).1 = some 0 ∧ (collection.lookup (some 1)).1 = some 1 ∧
          ¬(copied .everything).ChangedAlike
            (Request.attempt (copied .everything, groups) ⟨0, .value, .virtual "signal-A"⟩).1
            .value (.virtual "signal-A") [0, 1])) = true := by
    decide +kernel
  cases extracts : extract (copied .everything) [0, 1, 2] with
  | error fault =>
      rw [extracts] at apart
      cases apart
  | ok groups =>
      rw [extracts] at apart
      obtain ⟨_, ⟨rfl⟩, any⟩ := (Option.any_eq_true _ _).mp apart
      obtain ⟨collection, found, holds⟩ := (Option.any_eq_true _ _).mp any
      exact ⟨groups, collection, rfl, found, of_decide_eq_true holds⟩

end SignalGroups

end CircuitNetwork
