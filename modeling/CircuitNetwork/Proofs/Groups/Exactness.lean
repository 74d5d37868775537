import CircuitNetwork.Proofs.Groups.Renaming
import CircuitNetwork.Proofs.Wire.Built

namespace CircuitNetwork

/-!
# Renaming changes the group and nothing else

On a built board the ports know what is put out through them, and the networks
carry what their endpoints know. Renaming a group that was extracted keeps it so:
all that puts the signal out onto a network of the group is in the group, and
what is in the group puts it out onto no other network.
-/

theorem Signal.mem_map_rename
    (old new : Signal)
    (signals : List Signal)
    (asked : Signal) :
    asked ∈ signals.map (Signal.rename old new) ↔
      asked = new ∧ old ∈ signals ∨ asked ≠ old ∧ asked ∈ signals := by
  simp only [List.mem_map, Signal.rename]
  constructor
  · rintro ⟨signal, member, rfl⟩
    split <;> grind
  · rintro (⟨rfl, member⟩ | ⟨isOther, member⟩)
    · exact ⟨old, member, if_pos rfl⟩
    · exact ⟨asked, member, if_neg isOther⟩

namespace Board

section Replaced

variable {board other : Board} {old new : Signal}
variable {networks : List Nat} {points : List (Option Endpoint)}

theorem Replaced.hasPort_iff
    {used : List (Option Endpoint)}
    (replaced : board.Replaced other old new networks points used)
    {point : Endpoint} :
    other.HasPort point ↔ board.HasPort point := by
  refine ⟨fun hasPort => ⟨replaced.size_eq ▸ hasPort.inRange, ?_⟩, replaced.hasPort⟩
  have isPort := hasPort.isPort
  rwa [Body.ports, replaced.body_eq, Body.outputPort_relabel] at isPort

/-- The ports know what is put out through them if they are renamed together with it. -/
theorem Replaced.announces
    (replaced : board.Replaced other old new networks points points)
    (announces : board.Announces) :
    other.Announces := by
  intro point hasPort signal
  have known := announces point (replaced.hasPort_iff.mp hasPort)
  have relabeled := replaced.relabeled
  rw [replaced.signals_eq, relabeled.output_eq]
  by_cases isOutput : point = board.output point.entity
  · rw [relabeled.outputs_eq, ← isOutput]
    split
    · rw [SignalSet.contains_replace, Signal.mem_map_rename, known, known]
      simp only [← isOutput, true_and]
    · simpa only [← isOutput] using known signal
  · have silent (asked : Signal) : (board.signals point).contains asked = false := by
      rw [Bool.eq_false_iff, ne_eq, known]
      exact fun both => isOutput both.1
    rw [SignalSet.replace, silent]
    simp [silent, isOutput]

/-- The networks carry what their endpoints know if every endpoint that knows the signal is renamed
together with its networks. -/
theorem Replaced.loaded
    (replaced : board.Replaced other old new networks points points)
    (loaded : board.Loaded)
    (together : ∀ color network point, board.Lists color network point →
      (board.signals point).contains old = true → (network ∈ networks ↔ some point ∈ points)) :
    other.Loaded := by
  intro color network point listed found isFound signal
  have carries := loaded color network point (replaced.relabeled.lists_iff.mp listed)
  rw [replaced.network_eq] at isFound
  have listedBefore {before : Network} (isBefore : board.networks[network]? = some before)
      (member : Endpoint) (isMember : member ∈ before.points) :
      board.Lists before.color network member :=
    ⟨before.points, by rw [roster, isBefore, Option.map_some], isMember⟩
  simp only [replaced.signals_eq]
  split at isFound
  · rename_i isRenamed
    obtain ⟨before, isBefore, rfl⟩ := Option.map_eq_some_iff.mp isFound
    have inside (member : Endpoint) (isMember : member ∈ before.points)
        (knows : (board.signals member).contains old = true) : some member ∈ points :=
      (together _ _ _ (listedBefore isBefore member isMember) knows).mp isRenamed
    simp only [SignalSet.contains_replace, carries before isBefore]
    constructor
    · rintro (⟨rfl, member, isMember, knows⟩ | ⟨isOther, member, isMember, knows⟩)
      · refine ⟨member, isMember, ?_⟩
        rw [if_pos (inside member isMember knows), SignalSet.contains_replace]
        exact .inl ⟨rfl, knows⟩
      · refine ⟨member, isMember, ?_⟩
        split
        · exact (SignalSet.contains_replace ..).mpr (.inr ⟨isOther, knows⟩)
        · exact knows
    · rintro ⟨member, isMember, knows⟩
      split at knows
      · rcases (SignalSet.contains_replace ..).mp knows with ⟨isNew, knew⟩ | ⟨isOther, knew⟩
        · exact .inl ⟨isNew, member, isMember, knew⟩
        · exact .inr ⟨isOther, member, isMember, knew⟩
      · rename_i notRenamed
        refine .inr ⟨?_, member, isMember, knows⟩
        rintro rfl
        exact notRenamed (inside member isMember knows)
  · rename_i notRenamed
    rw [carries found isFound]
    have same (member : Endpoint) (isMember : member ∈ found.points) :
        (if some member ∈ points then (board.signals member).replace old new
          else board.signals member) = board.signals member := by
      split
      · rename_i isPoint
        have silent : ¬(board.signals member).contains old = true := fun knows =>
          notRenamed ((together _ _ _ (listedBefore isFound member isMember) knows).mpr isPoint)
        rw [SignalSet.replace, if_neg silent]
      · rfl
    constructor
    · rintro ⟨member, isMember, knows⟩
      exact ⟨member, isMember, by rwa [same member isMember]⟩
    · rintro ⟨member, isMember, knows⟩
      exact ⟨member, isMember, by rwa [← same member isMember]⟩

end Replaced

end Board

/-! ## Groups of a built board -/

namespace SignalGroups

open Collection Board

variable {board : Board} {entities : List Nat} {signal : Signal} {collection : Collection}

/-- A current group of an extracted signal can be renamed. -/
theorem Extracted.rename_eq
    {groups : SignalGroups}
    (extracted : Extracted board entities signal collection)
    (neat : collection.Neat signal)
    (found : groups.find? signal = some collection)
    {root : Nat}
    (isRoot : root ∈ collection.roots)
    (new : Signal) :
    ∃ other later,
      rename root signal new (board, groups) = .ok () (other, groups.insert signal later) ∧
        board.Replaced other signal new (collection.groupAt root).networks
          (collection.groupAt root).points (collection.groupAt root).points ∧
        Retired collection later root := by
  have wellformed := extracted.grouped.wellformed
  obtain ⟨inRange, parentEq⟩ := wellformed.mem_roots.mp isRoot
  have isId : collection.id? (root : Int) = some root := by simp [id?, inRange]
  have speaks : ∀ point ∈ (collection.groupAt (collection.root root)).points,
      ∃ member, point = some member ∧ board.Speaks signal member := by
    intro point has
    obtain ⟨member, isMember, -, memberSpeaks⟩ := extracted.speaks has
    exact ⟨member, isMember, memberSpeaks⟩
  obtain ⟨other, later, renamed, replaced, retired⟩ :=
    Collection.rename_eq wellformed.rooted neat (wellformed.live _) speaks new
  rw [root_of_isRoot parentEq] at replaced retired
  exact ⟨other, later, rename_of_ok found isId renamed, replaced, retired⟩

/-- A constant, a combinator that reads it, and a decider that compares what the combinator puts out
and sees its own output. -/
def chain (middle : Body) : Board :=
  let board := ({} : Board).add (.ofCount 5)
  let board := board.add middle
  let board := board.add (.decider
    { first := .value, second := .constant 0, comparator := .greater, output := .control,
      copyCount := false })
  let board := board.attempt ⟨.red, [some ⟨0, .one⟩, some ⟨1, .one⟩]⟩
  let board := board.attempt ⟨.red, [some ⟨1, .two⟩, some ⟨2, .one⟩]⟩
  board.attempt ⟨.green, [some ⟨2, .two⟩, some ⟨2, .one⟩]⟩

end SignalGroups

end CircuitNetwork
