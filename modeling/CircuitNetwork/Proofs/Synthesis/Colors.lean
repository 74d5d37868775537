import CircuitNetwork.Proofs.Circuit.Reach
import CircuitNetwork.Proofs.Synthesis.History
import CircuitNetwork.Proofs.Synthesis.Values

namespace CircuitNetwork

/-!
# Values on wires of different colors

Consumers are attached to a producer with red wires, apart from the write enable
of a memory, which is attached with a green one. For inputs, literals, comparisons,
operations and read ports the color does not matter. The two deciders of a
multiplexer are joined in red only, so a green wire misses what the second of them
puts out: a memory does not see its write enable if a multiplexer takes it from its
second input.
-/

/-- What only red wires carry of the value of a node. -/
def NodeKind.redOnly (circuit : Circuit) : NodeKind → Int32
  | mux _ _ _ first => Frame.count (circuit.output (first + 2)) .value
  | _ => 0

namespace Design

open Relation

variable {design connected later : Design} {board : Board} {circuit : Circuit}

/-- Everything may be driven but the terminals of outputs. -/
def Drivable (design : Design) (entity : Nat) (_ : Signal) : Prop :=
  ∀ id bits, id < design.nodes.size → (design.node id).kind ≠ .output bits entity

theorem Coherent.muted
    (coherent : design.Coherent)
    (reached : circuit.Reached design.board design.Drivable) :
    design.Muted circuit := by
  intro id inRange bits terminal isOutput
  have stands := coherent.grounded.stands inRange
  rw [isOutput] at stands
  exact reached.output_eq_empty_of_undriven stands
    fun _ drivable => drivable id bits inRange isOutput

/-- The heads of a node in the two colors. -/
theorem sum_heads_red
    (design : Design)
    (id : Nat)
    (circuit : Circuit) :
    ∑ entity ∈ design.heads .red id, Frame.count (circuit.output entity) .value =
      ∑ entity ∈ design.heads .green id, Frame.count (circuit.output entity) .value +
        (design.node id).kind.redOnly circuit := by
  unfold heads NodeKind.redOnly
  cases (design.node id).kind with
  | mux a b select first =>
      rw [Finset.sum_pair (by omega : first + 1 ≠ first + 2), Finset.sum_singleton]
  | _ => simp

/-- In every state of a simulation, a consumer on a red wire reads what one on a green wire does, and
in addition what only red wires carry. -/
theorem value_red_eq_value_green_add
    (built : design.Built)
    {id : Nat}
    (inRange : id < design.nodes.size)
    (produces : (design.node id).kind.isProducer)
    {point : Endpoint}
    (connects : connect resolve id design = .ok (some point) connected)
    (builds : ReflTransGen Builds connected later)
    (placed : later.board.Alike board)
    (reached : circuit.Reached board later.Drivable)
    {first second : Endpoint}
    (red : board.Joined .red point first)
    (green : board.Joined .green point second) :
    circuit.value board first .red .value =
      circuit.value board second .green .value + (design.node id).kind.redOnly circuit := by
  have step : Builds design connected := by
    have leaves : after (connect resolve id) design = connected := by rw [after, connects]
    exact leaves ▸ .connect inRange
  obtain ⟨standing, kept⟩ := standing_of_builds built.standing (builds.head step)
  have outlet : (later.node id).kind.outlet = some point := by
    have ensured := connect_ensures built.standing.coherent.formed inRange built.standing.quiet
    rw [connects] at ensured
    obtain ⟨passes, -, returned⟩ := ensured
    have grows := (passes.steps.follows built.standing.coherent.formed).grows
    rw [kept.kind_eq inRange, returned, grows.kind_eq inRange]
  have coherent := standing.coherent.withBoard placed
  have muted := coherent.muted reached
  have laterInRange : id < later.nodes.size := Nat.lt_of_lt_of_le inRange kept.size_le
  have stillProduces : (later.node id).kind.isProducer := by rwa [kept.kind_eq inRange]
  calc circuit.value board first .red .value
      = ∑ entity ∈ later.heads .red id, Frame.count (circuit.output entity) .value :=
        coherent.value_of_outlet reached.sound muted laterInRange stillProduces outlet red .value
    _ = ∑ entity ∈ later.heads .green id, Frame.count (circuit.output entity) .value +
          (design.node id).kind.redOnly circuit := by
        rw [sum_heads_red, kept.kind_eq inRange]
    _ = circuit.value board second .green .value + (design.node id).kind.redOnly circuit := by
        congr 1
        exact (coherent.value_of_outlet reached.sound muted laterInRange stillProduces outlet green
          .value).symm

/-! ## A memory whose write enable comes from a multiplexer -/

/-- The cell of a memory of one bit without read ports. Its nets are 2 to 5. -/
def bitCell : Cell :=
  match MemorySpec.cell ⟨1, 1, 1, 0, 0, 0⟩ {} with
  | .ok cell _ => cell
  | .error _ _ => {}

/-- The inputs of a memory and of the multiplexer that enables it, and the multiplexer. -/
def gateNodes : List Addition := [
  .input [.net 2], .input [.net 3], .input [.net 4], .input [.net 6], .input [.net 7],
  .input [.net 8], .mux [.net 6] [.net 7] [.net 8]]

/-- The memory of the cell, behind the entities of these nodes. -/
def bitBank : Bank :=
  { Bank.generated (⟨1, 1, 1, 0, 0, 0⟩ : MemorySpec).geometry with first := 9 }

/-- The producers of all nets, and the nodes that they are. -/
def gatedNets : List (Nat × Nat) :=
  [(2, 0), (3, 1), (4, 2), (6, 3), (7, 4), (8, 5), (5, 6)]

/-- The multiplexer, the memory and an output that shows what the multiplexer says. -/
def gatedDraft : Design :=
  after (Addition.output [.net 5]).run ((ofAdditions gateNodes).withMemory bitBank)

/-- The same design with all producers registered. -/
def gated : Design :=
  { gatedDraft with
    table := gatedNets.foldl (fun table (net, id) => table.add [.net net] (some id)) {} }

/-- The multiplexer has been connected. -/
def gatedMux : Design :=
  after (connect resolve 6) gated

/-- The memory and the output have been connected too. -/
def gatedWired : Design :=
  after (connect resolve 8) (after (connect resolve 7) gatedMux)

/-- The simulation in which the multiplexer takes a one from its second input. -/
def gatedRun : Circuit :=
  (((Circuit.fresh (List.range 14) 0).drive gatedWired.board 4 .value fun _ => 1).drive
    gatedWired.board 5 .value fun _ => 1).run gatedWired.board 3

/-- The draft is made by additions, one of them that of the cell. -/
theorem built_gatedDraft : gatedDraft.Built := by
  have accepted : (Bank.ofCell bitCell 9).toOption = some bitBank := by decide +kernel
  cases made : Bank.ofCell bitCell 9 with
  | error failure =>
      rw [made] at accepted
      cases accepted
  | ok bank =>
      rw [made] at accepted
      obtain rfl : bank = bitBank := Option.some.inj accepted
      have size : (ofAdditions gateNodes).board.size = 9 := rfl
      have memory : after (Addition.memory bitCell).run (ofAdditions gateNodes) =
          (ofAdditions gateNodes).withMemory bitBank := by
        rw [after_run, Addition.make, after_map, after, addMemory_run (size ▸ made)]
      have added : ((ofAdditions gateNodes).withMemory bitBank).Built :=
        memory ▸ ReflTransGen.tail (built_ofAdditions gateNodes) (.add _)
      exact ReflTransGen.tail added (.add _)

theorem size_gatedDraft : gatedDraft.nodes.size = 9 :=
  rfl

theorem isProducer_gated : (gated.node 6).kind.isProducer :=
  rfl

theorem built_gated : gated.Built := by
  refine ReflTransGen.tail built_gatedDraft (.use ?_)
  refine List.foldlRecOn gatedNets _ (names_empty gatedDraft) fun table names entry member => ?_
  have inRange : ∀ entry ∈ gatedNets, entry.2 < 9 := by decide
  exact names.add _ (size_gatedDraft ▸ inRange entry member)

theorem connect_gated : connect resolve 6 gated = .ok (some ⟨7, .two⟩) gatedMux := by
  have returns : (connect resolve 6).run' gated = some (some ⟨7, .two⟩) := rfl
  exact eq_ok_after returns

theorem builds_gatedWired : ReflTransGen Builds gatedMux gatedWired := by
  have size : gatedMux.nodes.size = 9 := rfl
  have sizeNext : (after (connect resolve 7) gatedMux).nodes.size = 9 := rfl
  have memory : Builds gatedMux (after (connect resolve 7) gatedMux) :=
    .connect (by rw [size]; decide)
  exact (ReflTransGen.single memory).tail (.connect (by rw [sizeNext]; decide))

theorem size_gatedWired : gatedWired.nodes.size = 9 :=
  rfl

/-- The constants that are driven belong to inputs. -/
theorem isInput_gatedWired :
    ∀ entity ∈ [4, 5], ∀ id < 9,
      (gatedWired.node id).kind.outlet = some ⟨entity, .one⟩ →
        (gatedWired.node id).kind.isInput := by
  decide

theorem simulable_gatedWired :
    ∀ id ∈ List.range 14, Circuit.Simulable (gatedWired.board.entity id).body := by
  decide

theorem reached_gatedRun : gatedRun.Reached gatedWired.board gatedWired.Drivable := by
  have drivable : ∀ entity ∈ [4, 5], gatedWired.Drivable entity .value := by
    intro entity member id bits inRange isOutput
    have isInput := isInput_gatedWired entity member id (size_gatedWired ▸ inRange)
      (by rw [isOutput]; rfl)
    rw [isOutput] at isInput
    cases isInput
  have started : Circuit.ofEntities gatedWired.board 0 (List.range 14) =
      .ok (Circuit.fresh (List.range 14) 0) :=
    Circuit.ofEntities_eq_ok_iff.mpr ⟨by decide, List.nodup_range, simulable_gatedWired, rfl⟩
  exact (((Circuit.Reached.start started).drive (drivable 4 (by simp)) _).drive
    (drivable 5 (by simp)) _).run 3

/-- The output is attached to the multiplexer with a red wire. -/
theorem joined_red_gatedWired : gatedWired.board.Joined .red ⟨7, .two⟩ ⟨13, .one⟩ :=
  ⟨_, rfl, rfl⟩

/-- The memory is attached to the multiplexer with a green wire. -/
theorem joined_green_gatedWired : gatedWired.board.Joined .green ⟨7, .two⟩ ⟨9, .one⟩ :=
  ⟨_, rfl, rfl⟩

theorem value_red_eq_value_green_add_gated :
    gatedRun.value gatedWired.board ⟨13, .one⟩ .red .value =
      gatedRun.value gatedWired.board ⟨9, .one⟩ .green .value +
        (gated.node 6).kind.redOnly gatedRun := by
  have inRange : 6 < gatedDraft.nodes.size := by rw [size_gatedDraft]; decide
  exact value_red_eq_value_green_add built_gated inRange isProducer_gated connect_gated
    builds_gatedWired (.refl _) reached_gatedRun joined_red_gatedWired joined_green_gatedWired

/-- The output shows a one that the memory does not see. -/
theorem value_red_ne_value_green_gated :
    gated.Built ∧ connect resolve 6 gated = .ok (some ⟨7, .two⟩) gatedMux ∧
      ReflTransGen Builds gatedMux gatedWired ∧
      gatedRun.Reached gatedWired.board gatedWired.Drivable ∧
      gatedWired.board.Joined .red ⟨7, .two⟩ ⟨13, .one⟩ ∧
      gatedWired.board.Joined .green ⟨7, .two⟩ ⟨9, .one⟩ ∧
      gatedRun.value gatedWired.board ⟨13, .one⟩ .red .value = 1 ∧
      gatedRun.value gatedWired.board ⟨9, .one⟩ .green .value = 0 := by
  have red : gatedRun.value gatedWired.board ⟨13, .one⟩ .red .value = 1 := by decide +kernel
  have green : gatedRun.value gatedWired.board ⟨9, .one⟩ .green .value = 0 := by decide +kernel
  exact ⟨built_gated, connect_gated, builds_gatedWired, reached_gatedRun, joined_red_gatedWired,
    joined_green_gatedWired, red, green⟩

end Design

end CircuitNetwork
