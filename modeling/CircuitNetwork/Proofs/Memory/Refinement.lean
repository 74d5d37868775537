import CircuitNetwork.Proofs.Memory.Run

namespace CircuitNetwork

/-!
# Memories remember

The simulation of a blueprint whose inputs are driven with arbitrary values
behaves as a memory. The latch of a row takes the written data when clock and
enable added up to two and the address was that of the row, and keeps its value
otherwise. A read port shows the latch of the row whose address it was given.
-/

/-- The constants of the primary inputs of a memory. -/
structure MemoryInputs where
  clock : Nat
  address : Nat
  data : Nat
  enable : Nat
  reads : List Nat

/-- All inputs in the order of their bit vectors. -/
def MemoryInputs.all (inputs : MemoryInputs) : List Nat :=
  [inputs.clock, inputs.address, inputs.data, inputs.enable] ++ inputs.reads

/-- The constant of the primary input that produces a bit vector. -/
def Blueprint.inputAt? (blueprint : Blueprint) (bits : List Bit) : Option Nat :=
  match blueprint.design.table.find? bits with
  | some (some node) =>
      match (blueprint.design.node node).kind with
      | .input _ constant => some constant
      | _ => none
  | _ => none

/-- The value that an entity puts out. -/
def Circuit.shows (circuit : Circuit) (id : Nat) : Int32 :=
  Frame.count (circuit.output id) .value

/-- The endpoint at the output of the latch of a row. -/
def Bank.latchOutput (bank : Bank) (row : Nat) : Endpoint :=
  ⟨bank.first + Bank.latchAt row, .two⟩

/-- A simulation whose states behave as those of a memory. -/
structure Bank.Remembers
    (bank : Bank)
    (board : Board)
    (inputs : MemoryInputs)
    (after : Nat → Circuit) :
    Prop where
  initially : ∀ row < bank.geometry.size, ∀ color, ∀ count ≤ 2,
    (after count).value board (bank.latchOutput row) color .value = 0
  written : ∀ row < bank.geometry.size, ∀ color count,
    (after (count + 3)).value board (bank.latchOutput row) color .value =
      if (after count).shows inputs.clock + (after count).shows inputs.enable = 2 ∧
          (after (count + 1)).shows inputs.address = Bank.rowAddress bank.geometry row then
        (after (count + 2)).shows inputs.data
      else (after (count + 2)).value board (bank.latchOutput row) color .value
  apart : ∀ row < bank.geometry.size, ∀ other < bank.geometry.size,
    Bank.rowAddress bank.geometry row = Bank.rowAddress bank.geometry other → row = other
  connected : ∀ port < bank.geometry.readPorts,
    (board.network? .red (bank.portOutput port)).isSome
  hit : ∀ port constant, inputs.reads[port]? = some constant →
    ∀ color, (board.network? color (bank.portOutput port)).isSome →
      ∀ count, ∀ row < bank.geometry.size,
        (after count).shows constant = Bank.rowAddress bank.geometry row →
          ∀ latchColor,
            (after (count + 2)).value board (bank.portOutput port) color .value =
              (after (count + 1)).value board (bank.latchOutput row) latchColor .value
  missed : ∀ port constant, inputs.reads[port]? = some constant →
    ∀ color count,
      (∀ row < bank.geometry.size,
        (after count).shows constant ≠ Bank.rowAddress bank.geometry row) →
        (after (count + 2)).value board (bank.portOutput port) color .value = 0

namespace Blueprint.Holds

variable {blueprint : Blueprint} {bank : Bank}

/-- The primary inputs of a blueprint, by their bit vectors. -/
theorem inputAt?_eq
    (holds : blueprint.Holds bank)
    {index : Nat}
    {bits : List Bit}
    (atIndex : bank.inputVectors[index]? = some bits) :
    blueprint.inputAt? bits = some ((Role.input index).place bank.geometry) := by
  obtain ⟨wired, complete, nodes, table, -⟩ := holds.wired
  obtain ⟨found, kind⟩ := complete.find?_input atIndex
  rw [Design.node, ← nodes, ← Design.node] at kind
  rw [inputAt?, table, found]
  simp only [kind]

theorem map_inputAt?
    (holds : blueprint.Holds bank) :
    bank.inputVectors.map blueprint.inputAt? = (Role.inputs bank.geometry).map some := by
  apply List.ext_getElem?
  intro index
  rw [List.getElem?_map, List.getElem?_map]
  cases atIndex : bank.inputVectors[index]? with
  | none =>
      have outside := List.getElem?_eq_none_iff.mp atIndex
      rw [length_inputVectors] at outside
      simp [Role.inputs, outside]
  | some bits =>
      have inRange := (List.getElem?_eq_some_iff.mp atIndex).1
      rw [length_inputVectors] at inRange
      simp [Role.inputs, inRange, holds.inputAt?_eq atIndex]

/-- The memory of a blueprint. -/
theorem memory_eq
    (holds : blueprint.Holds bank) :
    (blueprint.design.node 0).kind = .memory bank := by
  obtain ⟨wired, complete, nodes, -, -⟩ := holds.wired
  have kind : (wired.node 0).kind = .memory bank := complete.shape.kind_eq rfl
  rwa [Design.node, nodes]

/-- A blueprint can be simulated. -/
theorem ofEntities_eq
    (holds : blueprint.Holds bank)
    (rows : 1 ≤ bank.geometry.size)
    (workers : Int) :
    Circuit.ofEntities blueprint.design.board workers blueprint.arena.members =
      .ok (.fresh blueprint.arena.members workers) := by
  have realized := holds.realized rows
  refine Circuit.ofEntities_eq_ok_iff.mpr ⟨?_, ?_, ?_, rfl⟩
  · have first : 0 ∈ blueprint.arena.members :=
      (realized.member_iff 0).mpr (Role.place_lt_total (show Role.pulse.In _ from trivial))
    exact List.ne_nil_of_mem first
  · rw [holds.members_eq]
    exact nodup_entityOrder bank
  · intro id member
    obtain ⟨role, present, rfl⟩ := Role.exists_place ((realized.member_iff id).mp member)
    rw [realized.body_eq role present]
    cases role <;> exact ⟨rfl, rfl⟩

end Blueprint.Holds

open Role

/-- The constants of the inputs, by what they are for. -/
def Role.memoryInputs (geometry : Geometry) : MemoryInputs where
  clock := (input 0).place geometry
  address := (input 1).place geometry
  data := (input 2).place geometry
  enable := (input 3).place geometry
  reads := (List.range geometry.readPorts).map fun port => (input (port + 4)).place geometry

theorem Role.all_memoryInputs
    (geometry : Geometry) :
    (memoryInputs geometry).all = inputs geometry := by
  rw [inputs, List.range_add, List.map_append, List.map_map]
  simp only [MemoryInputs.all, memoryInputs, Function.comp_def, Nat.add_comm 4]
  rfl

/-- The networks of a read port carry what its readers show, and a color without a network nothing. -/
theorem MemoryRun.value_port
    (run : MemoryRun)
    (rows : 1 ≤ run.geometry.size)
    {port : Nat}
    (inRange : port < run.geometry.readPorts)
    (color : Color)
    (count : Nat) :
    (run.after count).value run.board
        ((reader port (run.geometry.size - 1)).point run.geometry .two) color .value =
      if (run.board.network? color
          ((reader port (run.geometry.size - 1)).point run.geometry .two)).isSome then
        ∑ row ∈ Finset.range run.geometry.size, run.shown (reader port row) .value count
      else 0 := by
  have lastInRange : run.geometry.size - 1 < run.geometry.size := by omega
  have present : (reader port (run.geometry.size - 1)).In run.geometry := ⟨inRange, lastInRange⟩
  have connected := run.realized.joined_iff color _ _ .two .two present present
  rw [Board.joined_self_iff] at connected
  split
  · rename_i isConnected
    exact run.value_reader inRange lastInRange (connected.mp isConnected).1 count
  · rename_i isLoose
    have loose : net run.geometry color (reader port (run.geometry.size - 1), .two) = .loose := by
      by_contra laid
      exact isLoose (connected.mpr ⟨laid, rfl⟩)
    rw [run.value_after color present, loose]
    cases color <;> rfl

/-- A run of a memory remembers. -/
theorem MemoryRun.remembers
    (run : MemoryRun)
    (rows : 1 ≤ run.geometry.size)
    (fits : run.geometry.size < 0x80000000)
    {bank : Bank}
    (first : bank.first = 0)
    (sameGeometry : bank.geometry = run.geometry) :
    bank.Remembers run.board (memoryInputs run.geometry) run.after := by
  have latchOutput (row : Nat) : bank.latchOutput row = (latch row).point run.geometry .two := by
    rw [Bank.latchOutput, first, Nat.zero_add]
    rfl
  have portOutput (port : Nat) : bank.portOutput port =
      (reader port (run.geometry.size - 1)).point run.geometry .two := by
    rw [Bank.portOutput_eq first (sameGeometry ▸ rows), sameGeometry]
  have readConstant {port constant : Nat}
      (listed : (memoryInputs run.geometry).reads[port]? = some constant) :
      port < run.geometry.readPorts ∧ constant = (input (port + 4)).place run.geometry := by
    obtain ⟨inRange, same⟩ := List.getElem?_eq_some_iff.mp listed
    simp only [memoryInputs, List.length_map, List.length_range, List.getElem_map,
      List.getElem_range] at inRange same
    exact ⟨inRange, same.symm⟩
  constructor <;> simp only [sameGeometry, latchOutput, portOutput]
  · intro row inRange color count early
    rw [run.value_latch inRange, run.latched_eq_zero inRange early]
  · intro row inRange color count
    rw [run.value_latch inRange, run.value_latch inRange]
    exact run.latched_add_three inRange count
  · intro row inRange other otherInRange same
    exact row_eq_of_rowAddress_eq fits inRange otherInRange same
  · intro port inRange
    have present : (reader port (run.geometry.size - 1)).In run.geometry := ⟨inRange, by omega⟩
    rw [← Board.joined_self_iff, run.realized.joined_iff .red _ _ .two .two present present]
    simp [net, redNet]
  · intro port constant listed color connected count row inRange asked latchColor
    obtain ⟨portInRange, rfl⟩ := readConstant listed
    rw [run.value_port rows portInRange, if_pos connected, run.value_latch inRange]
    exact run.sum_readers_of_row fits portInRange inRange asked
  · intro port constant listed color count missed
    obtain ⟨portInRange, rfl⟩ := readConstant listed
    rw [run.value_port rows portInRange]
    split
    · exact run.sum_readers_of_no_row portInRange missed
    · rfl

/-- A memory that is accepted can be built, wired and simulated. Whatever values are driven on its
inputs, its simulation remembers. -/
theorem Blueprint.simulation_remembers
    {spec : MemorySpec}
    (small : spec.Small)
    (addressed : 1 ≤ spec.addressBits.toInt)
    {cell : Cell}
    {nets : Nets}
    (made : spec.cell.run {} = .ok cell nets)
    {bank : Bank}
    (accepted : Bank.ofCell cell 0 = .ok bank)
    (columns workers : Int) :
    ∃ (blueprint : Blueprint) (circuit : Circuit) (memory : Nat) (inputs : MemoryInputs),
      Blueprint.ofSpec spec columns = .ok blueprint ∧
      (blueprint.design.node memory).kind = .memory bank ∧
      bank.geometry = spec.geometry ∧
      Circuit.ofEntities blueprint.design.board workers blueprint.arena.members = .ok circuit ∧
      inputs.all.Nodup ∧
      (Blueprint.inputVectors spec cell).map blueprint.inputAt? = inputs.all.map some ∧
      ∀ values : Nat → Nat → Int32,
        let after (count : Nat) : Circuit :=
          (circuit.driveAll blueprint.design.board inputs.all .value values).run
            blueprint.design.board count
        (∀ input ∈ inputs.all, (after 0).shows input = 0 ∧
          ∀ count, (after (count + 1)).shows input = values input count) ∧
        bank.Remembers blueprint.design.board inputs after := by
  obtain ⟨blueprint, built, holds⟩ := ofSpec_run small addressed made accepted columns
  obtain ⟨bankEq, buildable⟩ := Bank.ofCell_generated small made accepted
  have sameGeometry : bank.geometry = spec.geometry := by rw [bankEq]; rfl
  have rows : 1 ≤ bank.geometry.size := sameGeometry ▸ buildable.size
  have fits : bank.geometry.size < 0x80000000 := by
    have bounded := (small spec.size (by simp [MemorySpec.fields])).2
    rw [sameGeometry]
    show spec.size.toInt.toNat < _
    omega
  have all := all_memoryInputs bank.geometry
  refine ⟨blueprint, _, 0, memoryInputs bank.geometry, built, holds.memory_eq, sameGeometry,
    holds.ofEntities_eq rows workers, ?_, ?_, ?_⟩
  · rw [all]
    exact nodup_inputs bank.geometry
  · rw [all, inputVectors_eq accepted sameGeometry]
    exact holds.map_inputAt?
  · intro values
    let run : MemoryRun := ⟨bank.geometry, blueprint.design.board, blueprint.arena.members, workers,
      values, holds.realized rows⟩
    rw [all]
    refine ⟨?_, run.remembers rows fits (bankEq ▸ rfl) rfl⟩
    intro constant listed
    obtain ⟨index, inRange, rfl⟩ := List.mem_map.mp listed
    refine ⟨run.shown_zero (input index) .value, fun count => ?_⟩
    exact run.shown_input (List.mem_range.mp inRange) .value count

/-- A memory of four rows with addresses from two on, and two read ports. -/
theorem Blueprint.simulation_remembers_four_rows :
    ∃ (bank : Bank) (blueprint : Blueprint) (circuit : Circuit) (inputs : MemoryInputs),
      Blueprint.ofSpec ⟨3, 8, 4, 2, 2, 1⟩ 5 = .ok blueprint ∧
      bank.geometry = ⟨3, 8, 4, 2, 2, 1⟩ ∧
      Circuit.ofEntities blueprint.design.board 3 blueprint.arena.members = .ok circuit ∧
      ∀ values : Nat → Nat → Int32,
        bank.Remembers blueprint.design.board inputs fun count =>
          (circuit.driveAll blueprint.design.board inputs.all .value values).run
            blueprint.design.board count := by
  let spec : MemorySpec := ⟨3, 8, 4, 2, 2, 1⟩
  have accepted :
      (match spec.cell.run {} with
        | .ok cell _ => (Bank.ofCell cell 0).toOption.isSome
        | .error _ _ => false) = true := by
    decide +kernel
  cases made : spec.cell.run {} with
  | error failure nets =>
      rw [made] at accepted
      cases accepted
  | ok cell nets =>
      rw [made] at accepted
      cases bankEq : Bank.ofCell cell 0 with
      | error failure =>
          simp only [bankEq] at accepted
          cases accepted
      | ok bank =>
          obtain ⟨blueprint, circuit, _, inputs, built, -, geometry, simulated, -, -, behaves⟩ :=
            simulation_remembers (by decide) (by decide) made bankEq 5 3
          exact ⟨bank, blueprint, circuit, inputs, built, geometry, simulated,
            fun values => (behaves values).2⟩

end CircuitNetwork
