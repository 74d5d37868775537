import CircuitNetwork.Proofs.Groups.Replacement

namespace CircuitNetwork

/-!
# Renaming groups that use their signal

All endpoints of an extracted group use the signal, so renaming it reaches all of
them. The other groups of the signal can still be renamed.
-/

namespace Board

/-- An endpoint that uses a signal still does when another one was renamed. -/
theorem Relabeled.speaks
    {board other : Board}
    {old new signal : Signal}
    {points : List (Option Endpoint)}
    (relabeled : board.Relabeled other old new points)
    {point : Endpoint}
    (speaks : board.Speaks signal point)
    (kept : some point ∈ points → signal ≠ old) :
    other.Speaks signal point := by
  have renamed (signals : List Signal) (member : signal ∈ signals) (isOther : signal ≠ old) :
      signal ∈ signals.map (Signal.rename old new) :=
    List.mem_map.mpr ⟨signal, member, if_neg isOther⟩
  rcases speaks with ⟨isOutput, puts⟩ | ⟨isInput, reads⟩
  · refine .inl ⟨by rw [relabeled.output_eq, ← isOutput], ?_⟩
    rw [relabeled.outputs_eq, ← isOutput]
    split
    · rename_i isRenamed
      exact renamed _ puts (kept isRenamed)
    · exact puts
  · refine .inr ⟨isInput, ?_⟩
    rw [relabeled.operands_eq, ← isInput]
    split
    · rename_i isRenamed
      exact renamed _ reads (kept isRenamed)
    · exact reads

end Board

namespace Collection

variable {board : Board} {collection : Collection}

/-- Renaming a group whose endpoints all use the signal. -/
theorem rename_eq
    (rooted : collection.Rooted)
    {signal : Signal}
    (neat : collection.Neat signal)
    {id : Nat}
    (live : collection.Live id)
    (speaks : ∀ point ∈ (collection.groupAt (collection.root id)).points,
      ∃ member, point = some member ∧ board.Speaks signal member)
    (new : Signal) :
    ∃ other later,
      rename id new (board, collection) = .ok () (other, later) ∧
        board.Replaced other signal new (collection.groupAt (collection.root id)).networks
          (collection.groupAt (collection.root id)).points
          (collection.groupAt (collection.root id)).points ∧
        Retired collection later (collection.root id) := by
  have takes : ∀ point ∈ (collection.groupAt (collection.root id)).points,
      board.Takes collection.signal point := by
    intro point isPoint
    obtain ⟨member, rfl, memberSpeaks⟩ := speaks point isPoint
    exact .inl (neat.signal_eq ▸ memberSpeaks)
  have ports : ∀ member, some member ∈ (collection.groupAt (collection.root id)).points →
      board.HasPort member := by
    intro member isMember
    obtain ⟨_, ⟨rfl⟩, memberSpeaks⟩ := speaks _ isMember
    exact memberSpeaks.hasPort
  have outcome := renaming_rename rooted neat id ports new
  generalize rename id new (board, collection) = result at outcome
  cases outcome with
  | refused isRenamed _ =>
      rw [live] at isRenamed
      cases isRenamed
  | complete _ _ replaced retired =>
      exact ⟨_, _, rfl, neat.signal_eq ▸ replaced, retired⟩
  | broken _ members _ refuses _ _ =>
      exact absurd (takes _ (by simp [members])) refuses

end Collection

namespace SignalGroups

variable {board other : Board} {groups : SignalGroups} {number : Int} {old : Signal}
variable {collection changed : Collection} {id : Nat}

theorem collection_of_find?
    (found : groups.find? old = some collection) :
    groups.collection old = collection := by
  rw [SignalGroups.collection, found, Option.getD_some]

/-- Renaming a group of a signal is renaming it in the collection of the signal. -/
theorem rename_of_ok
    (found : groups.find? old = some collection)
    (isId : collection.id? number = some id)
    {new : Signal}
    (renamed : Collection.rename id new (board, collection) = .ok () (other, changed)) :
    rename number old new (board, groups) = .ok () (other, groups.insert old changed) := by
  have numbered : (Collection.renameNumber number new).run (board, collection) =
      .ok () (other, changed) := by
    refine (bind_of_ok rfl).trans ?_
    simp only [isId]
    exact renamed
  refine (bind_of_ok rfl).trans ?_
  simp only [found, numbered]
  rfl

end SignalGroups

/-! ## One renaming -/

/-- A signal that no listed combinator reads or puts out. -/
def Board.Unused (board : Board) (entities : List Nat) (signal : Signal) : Prop :=
  ∀ entity ∈ entities, signal ∉ (board.entity entity).body.operands ∧
    signal ∉ (board.entity entity).body.outputs

namespace Board.Relabeled

variable {board other : Board} {old new : Signal} {points : List (Option Endpoint)}

theorem mem_outputs
    (relabeled : board.Relabeled other old new points)
    {signal : Signal}
    (isOther : signal ≠ new)
    {id : Nat}
    (puts : signal ∈ (other.entity id).body.outputs) :
    signal ∈ (board.entity id).body.outputs := by
  rw [relabeled.outputs_eq] at puts
  split at puts
  · obtain ⟨before, member, rfl⟩ := List.mem_map.mp puts
    unfold Signal.rename at isOther ⊢
    grind
  · exact puts

theorem mem_operands
    (relabeled : board.Relabeled other old new points)
    {signal : Signal}
    (isOther : signal ≠ new)
    {id : Nat}
    (reads : signal ∈ (other.entity id).body.operands) :
    signal ∈ (board.entity id).body.operands := by
  rw [relabeled.operands_eq] at reads
  split at reads
  · obtain ⟨before, member, rfl⟩ := List.mem_map.mp reads
    unfold Signal.rename at isOther ⊢
    grind
  · exact reads

theorem passThrough_eq
    (relabeled : board.Relabeled other old new points)
    (id : Nat) :
    (other.entity id).body.passThrough = (board.entity id).body.passThrough := by
  rw [relabeled.body_eq, Body.passThrough_relabel]

/-- Renaming a signal at some endpoints leaves others closed. -/
theorem closed
    (relabeled : board.Relabeled other old new points)
    {entities : List Nat}
    (unused : board.Unused entities new)
    {signal : Signal}
    {others : List (Option Endpoint)}
    (closed : Closed board entities signal others)
    (disjoint : ∀ point ∈ others, point ∈ points → signal ≠ old) :
    Closed other entities signal others := by
  have speaks : ∀ point ∈ others, ∃ member, point = some member ∧ member.entity ∈ entities ∧
      other.Speaks signal member := by
    intro point isPoint
    obtain ⟨member, rfl, listed, memberSpeaks⟩ := closed.speaks point isPoint
    exact ⟨member, rfl, listed, relabeled.speaks memberSpeaks (disjoint _ isPoint)⟩
  have shares (first second : Endpoint) : other.Shares first second ↔ board.Shares first second := by
    simp only [Shares, relabeled.joined_iff]
  by_cases isNew : signal = new
  · subst isNew
    have none (point : Option Endpoint) : point ∉ others := by
      intro isPoint
      obtain ⟨member, -, listed, memberSpeaks⟩ := closed.speaks point isPoint
      rcases memberSpeaks with ⟨-, puts⟩ | ⟨-, reads⟩
      · exact (unused _ listed).2 puts
      · exact (unused _ listed).1 reads
    exact ⟨speaks, by simp [none], by simp [none]⟩
  · refine ⟨speaks, ?_, ?_⟩
    · intro producer isProducer reader isReader puts reads share
      rw [relabeled.output_eq] at share ⊢
      exact closed.reader producer isProducer reader isReader (relabeled.mem_outputs isNew puts)
        (relabeled.mem_operands isNew reads) ((shares _ _).mp share)
    · intro producer isProducer passer isPasser puts passes passThrough share
      rw [relabeled.output_eq] at share ⊢
      rw [relabeled.output_eq]
      exact closed.through producer isProducer passer isPasser (relabeled.mem_outputs isNew puts)
        (relabeled.mem_outputs isNew passes) (relabeled.passThrough_eq passer ▸ passThrough)
        ((shares _ _).mp share)

end Board.Relabeled

namespace Collection

variable {board other : Board} {entities : List Nat} {collection later : Collection}

/-- The other groups of the signal can still be renamed. -/
theorem Marked.consistent
    {root : Nat}
    {old new : Signal}
    (marked : Marked collection later root)
    (relabeled : board.Relabeled other old new (collection.groupAt root).points)
    (isRoot : collection.root root = root)
    (consistent : Consistent board entities old collection)
    (unused : board.Unused entities new) :
    Consistent other entities old later where
  neat := marked.neat _ consistent.neat
  rooted := marked.rooted
  single := by
    intro id asked point has alsoHas
    simp only [HasPoint, marked.root_eq, marked.groupAt_eq] at has alsoHas ⊢
    exact consistent.single id asked point has alsoHas
  closed := by
    intro id live
    unfold Live at live
    rw [marked.root_eq, marked.isRenamed_eq] at live
    rw [marked.root_eq, marked.groupAt_eq]
    split at live
    · cases live
    · rename_i isOther
      refine relabeled.closed unused (consistent.closed id live) ?_
      intro point isPoint isRenamed
      have sameRoot : collection.root id = root :=
        (consistent.single id root point isPoint (by rwa [HasPoint, isRoot])).trans isRoot
      have outside : ¬root < collection.slots.size := fun inRange => isOther ⟨sameRoot, inRange⟩
      simp [groupAt, outside] at isRenamed

end Collection

end CircuitNetwork
