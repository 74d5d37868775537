import CircuitNetwork.Proofs.Synthesis.Networks

namespace CircuitNetwork.Design

/-!
# Designs in which every request has a producer

In such a design connecting a node succeeds and adds no literals.
-/

open Relation

variable {design later : Design}

/-- No wiring is under way or has failed, and every request of every node has a producer. -/
structure Provided (design : Design) : Prop where
  formed : design.Formed
  woven : design.Woven
  quiet : ∀ id, (design.node id).wiring ≠ .busy
  unfailed : ∀ id failure, (design.node id).wiring ≠ .done (some failure)
  resolved :
    ∀ id request, design.Requests id request →
      ∃ producer point, design.Resolves request producer point

/-- Two designs differ at most in their wires and in the state of wirings. -/
structure SameParts (design later : Design) : Prop where
  table_eq : later.table = design.table
  size_eq : later.nodes.size = design.nodes.size
  kind_eq : ∀ id, (later.node id).kind = (design.node id).kind
  entities_eq : later.board.entities = design.board.entities

namespace SameParts

theorem refl (design : Design) : SameParts design design :=
  ⟨rfl, rfl, fun _ => rfl, rfl⟩

theorem trans
    {last : Design}
    (first : SameParts design later)
    (second : SameParts later last) :
    SameParts design last where
  table_eq := second.table_eq.trans first.table_eq
  size_eq := second.size_eq.trans first.size_eq
  kind_eq id := (second.kind_eq id).trans (first.kind_eq id)
  entities_eq := second.entities_eq.trans first.entities_eq

theorem mark
    (design : Design)
    (id : Nat)
    (wiring : Wiring) :
    SameParts design (design.mark id wiring) :=
  ⟨rfl, by simp, fun other => by simp, rfl⟩

theorem requests_iff
    (same : SameParts design later)
    {id : Nat}
    {request : Request} :
    later.Requests id request ↔ design.Requests id request := by
  rw [Requests, Requests, same.kind_eq]

theorem resolves_iff
    (same : SameParts design later)
    {request : Request}
    {producer : Nat}
    {point : Endpoint} :
    later.Resolves request producer point ↔ design.Resolves request producer point := by
  rw [Resolves, Resolves, same.table_eq, same.kind_eq]

end SameParts

/-- A step of a wiring in which every request has a producer and nothing has failed. -/
theorem Advance.sameParts
    (unfailed : ∀ id failure, (design.node id).wiring ≠ .done (some failure))
    (resolved :
      ∀ id request, design.Requests id request →
        ∃ producer point, design.Resolves request producer point)
    (step : Advance design later) :
    SameParts design later ∧
      ∀ id failure, (later.node id).wiring ≠ .done (some failure) := by
  have unfailedMark (id : Nat) (wiring : Wiring) (fine : ∀ failure, wiring ≠ .done (some failure)) :
      ∀ other failure, ((design.mark id wiring).node other).wiring ≠ .done (some failure) := by
    intro other failure failed
    rcases wiring_of_mark (by simp) failed with before | ⟨-, -, isFailure⟩
    · exact unfailed other failure before
    · exact fine failure isFailure
  cases step with
  | start inRange idle above =>
      exact ⟨SameParts.mark design _ _, unfailedMark _ _ (by simp)⟩
  | finish busy above settled underway =>
      exact ⟨SameParts.mark design _ _, unfailedMark _ _ (by simp)⟩
  | lay busy supply =>
      exact ⟨⟨rfl, rfl, fun _ => rfl, by simp⟩, unfailed⟩
  | literal busy asked missing constant counted =>
      obtain ⟨producer, point, found, -⟩ := resolved _ _ asked
      rw [missing] at found
      cases found
  | giveUp busy above asked unmet ordinary =>
      obtain ⟨producer, point, answer⟩ := resolved _ _ asked
      exact absurd (.inl ⟨producer, point, answer, unfailed _⟩) unmet

theorem Advances.sameParts
    (unfailed : ∀ id failure, (design.node id).wiring ≠ .done (some failure))
    (resolved :
      ∀ id request, design.Requests id request →
        ∃ producer point, design.Resolves request producer point)
    (steps : Advances design later) :
    SameParts design later ∧
      ∀ id failure, (later.node id).wiring ≠ .done (some failure) := by
  induction steps with
  | refl =>
      exact ⟨SameParts.refl design, unfailed⟩
  | tail _ step inductionHypothesis =>
      obtain ⟨same, stillUnfailed⟩ := inductionHypothesis
      obtain ⟨sameOn, unfailedOn⟩ := step.sameParts stillUnfailed (by
        simpa only [same.requests_iff, same.resolves_iff] using resolved)
      exact ⟨same.trans sameOn, unfailedOn⟩

/-- A producer may be registered for a vector that has none. -/
theorem Provided.enter
    (provided : design.Provided)
    {bits : List Bit}
    (missing : design.table.find? bits = none)
    {id : Nat}
    (inRange : id < design.nodes.size) :
    (design.enter bits (some id)).Provided where
  formed := provided.formed.enter bits inRange
  woven := provided.woven.enter provided.formed missing _
  quiet := provided.quiet
  unfailed := provided.unfailed
  resolved other request asked := by
    obtain ⟨producer, point, resolved⟩ := provided.resolved other request asked
    exact ⟨producer, point, (grows_enter missing _).resolves provided.formed resolved⟩

/-- A node may be added whose requests have producers already. -/
theorem Provided.push
    (provided : design.Provided)
    {part : Part}
    {kind : NodeKind}
    (wires : kind.wires = part.wiresAt design.board.size)
    (memories :
      ∀ {memory index bits point},
        kind = .readPort memory index bits point → memory < design.nodes.size)
    (resolved :
      ∀ stage ∈ kind.stages, ∀ request ∈ stage.requests,
        ∃ producer point, design.Resolves request producer point) :
    (design.push part kind).Provided where
  formed := provided.formed.push part memories
  woven := provided.woven.push provided.formed wires
  quiet id := by
    rw [node_push]
    split
    · simp
    · exact provided.quiet id
  unfailed id := by
    rw [node_push]
    split
    · simp
    · exact provided.unfailed id
  resolved id request asked := by
    have answer : ∃ producer point, design.Resolves request producer point := by
      obtain ⟨stage, planned, member⟩ := asked
      rw [node_push] at planned
      split at planned
      · exact resolved stage planned request member
      · exact provided.resolved id request ⟨stage, planned, member⟩
    obtain ⟨producer, point, found⟩ := answer
    exact ⟨producer, point, (grows_push design part kind).resolves provided.formed found⟩

/-- Connecting a node succeeds and changes only wires and the state of wirings. -/
theorem Provided.connect
    (provided : design.Provided)
    {id : Nat}
    (inRange : id < design.nodes.size) :
    ∃ later,
      Design.connect resolve id design = .ok (design.node id).kind.outlet later ∧
        later.Provided ∧ SameParts design later ∧
        (later.node (design.wiredNode id)).wiring = .done none ∧
        ∀ other, (design.node other).wiring = .done none →
          (later.node other).wiring = .done none := by
  have ensured := connect_ensures provided.formed inRange provided.quiet
  cases ran : Design.connect resolve id design with
  | error failure later =>
      rw [ran] at ensured
      obtain ⟨passes, -, failed⟩ := ensured
      obtain ⟨-, unfailed⟩ := Advances.sameParts provided.unfailed provided.resolved passes.steps
      exact absurd failed (unfailed _ failure)
  | ok point later =>
      rw [ran] at ensured
      obtain ⟨passes, done, rfl⟩ := ensured
      obtain ⟨same, unfailed⟩ :=
        Advances.sameParts provided.unfailed provided.resolved passes.steps
      have follows := passes.steps.follows provided.formed
      refine ⟨later, by rw [same.kind_eq], ?_, same, ?_, fun other => follows.done_eq⟩
      · exact
          { formed := follows.formed
            woven := provided.woven.advances provided.formed passes.steps
            quiet := fun other busy => provided.quiet other ((passes.busy other).mp busy)
            unfailed := unfailed
            resolved := by simpa only [same.requests_iff, same.resolves_iff] using
              provided.resolved }
      · rw [← follows.grows.wiredNode_eq inRange]
        exact done

end CircuitNetwork.Design
