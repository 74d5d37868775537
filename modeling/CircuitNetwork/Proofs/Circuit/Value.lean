import CircuitNetwork.Proofs.Circuit.Step
import CircuitNetwork.Proofs.Wire.Networks
import Mathlib.Algebra.BigOperators.Group.Finset.Basic

namespace CircuitNetwork

/-!
# Values on networks

The value of a signal at an endpoint is the sum of what the members of the
circuit put out on the endpoint's network, whatever the order in which the
network lists them.
-/

open Finset

instance addCommMonoidInt32 : AddCommMonoid Int32 where
  add_assoc := Int32.add_assoc
  zero_add := Int32.zero_add
  add_zero := Int32.add_zero
  add_comm := Int32.add_comm
  nsmul := nsmulRec

namespace Circuit

/-- The members of a circuit that put their values out on the network of an endpoint. -/
def sources
    (circuit : Circuit)
    (board : Board)
    (color : Color)
    (point : Endpoint) :
    Finset Nat :=
  circuit.members.toFinset.filter fun id => board.Joined color (board.output id) point

/-- Adding the outputs on a list of endpoints adds up their counts. -/
theorem count_foldl_contribution
    {circuit : Circuit}
    (sound : circuit.Sound)
    (board : Board)
    (points : List Endpoint)
    (frame : Frame)
    (signal : Signal) :
    Frame.count
        (points.foldl (fun total point =>
          Frame.add total (circuit.contribution board point)) frame) signal =
      frame.count signal +
        (points.map fun point => Frame.count (circuit.contribution board point) signal).sum := by
  induction points generalizing frame with
  | nil =>
      simp
  | cons point rest inductionHypothesis =>
      have ordered : (circuit.contribution board point).Ordered := by
        unfold contribution
        split
        · exact (sound.proper_output point.entity).ordered
        · exact SignalMap.ordered_empty
      rw [List.foldl_cons, inductionHypothesis, Frame.count_add _ ordered, List.map_cons,
        List.sum_cons, add_assoc]

/-- The counts on a list of distinct endpoints, by the members whose outputs are in it. -/
theorem sum_contribution
    (circuit : Circuit)
    (board : Board)
    {points : List Endpoint}
    (distinct : points.Nodup)
    (signal : Signal) :
    (points.map fun point => Frame.count (circuit.contribution board point) signal).sum =
      ∑ id ∈ circuit.members.toFinset with board.output id ∈ points,
        Frame.count (circuit.output id) signal := by
  rw [← List.sum_toFinset _ distinct]
  -- Only the output endpoints of members contribute, and each belongs to one member.
  symm
  apply Finset.sum_of_injOn board.output
  · intro first _ second _ same
    exact congrArg Endpoint.entity same
  · intro id member
    simp only [coe_filter, List.mem_toFinset, Set.mem_ofPred_eq] at member
    simpa using member.2
  · intro point member unused
    unfold contribution
    split
    · rename_i isOutput
      have absent : point.entity ∉ circuit.members := by
        intro present
        apply unused
        refine ⟨point.entity, ?_, isOutput⟩
        simp only [coe_filter, List.mem_toFinset, Set.mem_ofPred_eq]
        rw [isOutput]
        exact ⟨present, by simpa using member⟩
      rw [output_eq_empty absent, Frame.count_empty]
    · exact Frame.count_empty signal
  · intro id _
    simp [contribution, Board.output]

/-- The value at an endpoint is the sum over the members whose outputs share its network. -/
theorem value_eq_sum
    {circuit : Circuit}
    (sound : circuit.Sound)
    {board : Board}
    (tidy : board.Tidy)
    (point : Endpoint)
    (color : Color)
    (signal : Signal) :
    circuit.value board point color signal =
      ∑ id ∈ circuit.sources board color point, Frame.count (circuit.output id) signal := by
  unfold value addNetwork sources
  cases found : board.network? color point with
  | none =>
      have noneJoined : ∀ id, ¬board.Joined color (board.output id) point := by
        rintro id ⟨network, -, pointFound⟩
        rw [found] at pointFound
        cases pointFound
      simp [noneJoined]
  | some network =>
      obtain ⟨points, listed, -⟩ := tidy.lists_of_network? found
      have samePoints : board.points network = points := by
        obtain ⟨stored, atNetwork, shape⟩ := Option.map_eq_some_iff.mp listed
        simp only [Prod.mk.injEq] at shape
        simp [Board.points, atNetwork, shape.2]
      have joinedIff : ∀ other,
          board.Joined color other point ↔ other ∈ points := by
        intro other
        constructor
        · rintro ⟨shared, otherFound, pointFound⟩
          rw [found] at pointFound
          obtain rfl := Option.some.inj pointFound
          obtain ⟨others, otherListed, member⟩ := tidy.lists_of_network? otherFound
          rw [listed] at otherListed
          simp only [Option.some.injEq, Prod.mk.injEq, true_and] at otherListed
          exact otherListed ▸ member
        · intro member
          exact ⟨network, tidy.network?_eq_some_iff.mpr ⟨points, listed, member⟩, found⟩
      simp only [samePoints, joinedIff]
      rw [count_foldl_contribution sound, Frame.count_empty, zero_add,
        sum_contribution circuit board (tidy.nodup listed)]

/-- The count on the input of a member is the sum of the values on its two networks. -/
theorem count_input
    {circuit : Circuit}
    (sound : circuit.Sound)
    (board : Board)
    (point : Endpoint)
    (signal : Signal) :
    Frame.count (circuit.input board point) signal =
      circuit.value board point .red signal + circuit.value board point .green signal := by
  have onto : ∀ (frame : Frame) (network : Option Nat),
      Frame.count (circuit.addNetwork board frame network) signal =
        frame.count signal +
          Frame.count (circuit.addNetwork board SignalMap.empty network) signal := by
    intro frame network
    cases network with
    | none =>
        simp [addNetwork]
    | some network =>
        simp [addNetwork, count_foldl_contribution sound]
  simp only [input, Color.all, List.foldl_cons, List.foldl_nil, value]
  exact onto _ _

end Circuit

end CircuitNetwork
