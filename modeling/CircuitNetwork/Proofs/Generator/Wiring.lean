import CircuitNetwork.Generator.Blueprint
import CircuitNetwork.Proofs.Netlist.MemoryCell
import CircuitNetwork.Proofs.Synthesis.Build

namespace CircuitNetwork.Blueprint

/-!
# Wired memories

A memory with its inputs and outputs is wired without failure, and no literals
are made for it. What it consists of is written out as lists.
-/

open Design

variable {design : Design}
  {kinds : List NodeKind} {bodies : List Body} {entries : List (String × Option Nat)}

/-- Nodes without entities of their own are added one after another. -/
theorem mapM_addNode
    {α : Type}
    (unwired : design.Unwired)
    (shape : design.HasShape kinds bodies entries)
    (items : List α)
    (kindOf : α → NodeKind)
    (plain : ∀ item, (kindOf item).wires = [])
    (memories :
      ∀ {item memory index bits point},
        kindOf item = .readPort memory index bits point → memory < kinds.length) :
    ∃ later,
      items.mapM (fun item => addNode (kindOf item)) design =
          .ok (List.range' kinds.length items.length) later ∧
        later.Unwired ∧ later.HasShape (kinds ++ items.map kindOf) bodies entries := by
  induction items generalizing design kinds with
  | nil =>
      exact ⟨design, rfl, unwired, by simpa using shape⟩
  | cons item rest inductionHypothesis =>
      have added : (design.push ⟨[], []⟩ (kindOf item)).Unwired :=
        unwired.push (plain item) (fun same => shape.size_eq ▸ memories same)
      have addedShape := shape.push ⟨[], []⟩ (kindOf item)
      rw [List.append_nil] at addedShape
      obtain ⟨later, ran, laterUnwired, laterShape⟩ := inductionHypothesis added addedShape
        (fun same => by have := memories same; simp; omega)
      refine ⟨later, ?_, laterUnwired, by simpa using laterShape⟩
      rw [List.mapM_cons, bind_of_ok (addNode_run design (kindOf item)), bind_of_ok ran]
      simp [shape.size_eq, List.range'_succ]

/-- The inputs for a list of vectors, their constants counted from a given one. -/
def inputKinds (vectors : List (List Bit)) (constant : Nat) : List NodeKind :=
  (vectors.zipIdx constant).map fun (bits, constant) => .input bits constant

/-- The entries of the table for a list of vectors, their nodes counted from a given one. -/
def inputEntries (vectors : List (List Bit)) (node : Nat) : List (String × Option Nat) :=
  (vectors.zipIdx node).map fun (bits, node) => (Bit.vectorText bits, some node)

/-- Inputs are registered for vectors that are different from each other and have no producers. -/
theorem forM_registerInput
    (unwired : design.Unwired)
    (shape : design.HasShape kinds bodies entries)
    (vectors : List (List Bit))
    (distinct : vectors.Nodup)
    (missing : ∀ bits ∈ vectors, design.table.find? bits = none) :
    ∃ later,
      (vectors.forM (fun bits => do let _ ← registerInput bits) : Synthesis Unit) design =
          .ok () later ∧
        later.Unwired ∧
        later.HasShape (kinds ++ inputKinds vectors bodies.length)
          (bodies ++ List.replicate vectors.length (.ofCount 0))
          (entries ++ inputEntries vectors kinds.length) := by
  induction vectors generalizing design kinds bodies entries with
  | nil =>
      exact ⟨design, rfl, unwired, by simpa [inputKinds, inputEntries] using shape⟩
  | cons bits rest inductionHypothesis =>
      obtain ⟨notInRest, restDistinct⟩ := List.nodup_cons.mp distinct
      let pushed := design.push ⟨[.ofCount 0], []⟩ (.input bits design.board.size)
      have pushedUnwired : pushed.Unwired :=
        unwired.push rfl (by intro _ _ _ _ same; cases same)
      have pushedShape := shape.push ⟨[.ofCount 0], []⟩ (.input bits design.board.size)
      have missingHere : pushed.table.find? bits = none := missing bits (by simp)
      have entered := pushedShape.enter missingHere (some design.nodes.size)
      obtain ⟨later, ran, laterUnwired, laterShape⟩ := inductionHypothesis
        (pushedUnwired.enter bits (by simp [pushed])) entered restDistinct (by
          intro other member
          have different : other ≠ bits := fun same => notInRest (same ▸ member)
          simp only [enter, Table.find?_add, if_neg different]
          exact missing other (by simp [member]))
      refine ⟨later, ran, laterUnwired, ?_⟩
      simpa [inputKinds, inputEntries, shape.size_eq, shape.board_size_eq, List.zipIdx_cons,
        List.replicate_succ] using laterShape

/-- A read port is registered, and an output is added and wired to it. -/
theorem addPortOutput_run
    (provided : design.Provided)
    (shape : design.HasShape kinds bodies entries)
    {port : Nat}
    {kind : NodeKind}
    (known : kinds[port]? = some kind)
    {point : Endpoint}
    (outlet : kind.outlet = some point)
    (missing : design.table.find? kind.bits = none) :
    ∃ later,
      addPortOutput port design = .ok kinds.length later ∧ later.Provided ∧
        later.HasShape (kinds ++ [.output kind.bits bodies.length]) (bodies ++ [.ofFilters []])
          (entries ++ [(Bit.vectorText kind.bits, some port)]) ∧
        (later.node kinds.length).wiring = .done none ∧
        ∀ other, (design.node other).wiring = .done none →
          (later.node other).wiring = .done none := by
  have inRange : port < kinds.length := (List.getElem?_eq_some_iff.mp known).1
  have sameKind := shape.kind_eq known
  let entered := design.enter kind.bits (some port)
  have enteredProvided : entered.Provided :=
    provided.enter missing (shape.size_eq ▸ inRange)
  have enteredShape := shape.enter missing (some port)
  have resolves : entered.Resolves
      { label := "output " ++ Bit.vectorText kind.bits, bits := kind.bits } port point := by
    refine ⟨?_, ?_, by simp⟩
    · simp [entered, enter, Table.find?_add]
    · rw [← outlet, ← sameKind]
      rfl
  let pushed := entered.push ⟨[.ofFilters []], []⟩ (.output kind.bits entered.board.size)
  have pushedProvided : pushed.Provided := by
    refine enteredProvided.push rfl (by intro _ _ _ _ same; cases same) ?_
    intro stage planned request member
    simp only [NodeKind.stages, List.mem_singleton] at planned
    subst planned
    simp only [List.mem_singleton] at member
    subst member
    exact ⟨port, point, resolves⟩
  have pushedShape := enteredShape.push ⟨[.ofFilters []], []⟩
    (.output kind.bits entered.board.size)
  have pushedSize : pushed.nodes.size = kinds.length + 1 := by
    rw [pushedShape.size_eq, List.length_append]
    rfl
  have outputNode : pushed.node kinds.length =
      { kind := .output kind.bits entered.board.size } := by
    rw [node_push, if_pos enteredShape.size_eq.symm]
  obtain ⟨later, connected, laterProvided, same, done, kept⟩ :=
    pushedProvided.connect (by omega : kinds.length < pushed.nodes.size)
  have wiredItself : pushed.wiredNode kinds.length = kinds.length := by
    rw [wiredNode, outputNode]
  rw [wiredItself] at done
  refine ⟨later, ?_, laterProvided, ?_, done, ?_⟩
  · rw [addPortOutput, bind_of_ok (get_run design), sameKind, bind_of_ok (register_run _ _ _),
      addOutput, bind_of_ok (installNode_run _ _ _), enteredShape.size_eq, bind_of_ok connected]
    rfl
  · have laterShape := pushedShape.sameParts same
    rw [enteredShape.board_size_eq] at laterShape
    exact laterShape
  · intro other otherDone
    apply kept
    have otherInRange : other < design.nodes.size := inRange_of_wiring (by simp [otherDone])
    have different : other ≠ entered.nodes.size := Nat.ne_of_lt otherInRange
    rw [node_push, if_neg different]
    exact otherDone

/-- The outputs for a list of vectors, their terminals counted from a given one. -/
def outputKinds (vectors : List (List Bit)) (terminal : Nat) : List NodeKind :=
  (vectors.zipIdx terminal).map fun (bits, terminal) => .output bits terminal

/-- All read ports are registered and given outputs. -/
theorem mapM_addPortOutput
    (provided : design.Provided)
    (shape : design.HasShape kinds bodies entries)
    (ports : List Nat)
    (bitsOf : Nat → List Bit)
    (known :
      ∀ port ∈ ports, ∃ kind point,
        kinds[port]? = some kind ∧ kind.bits = bitsOf port ∧ kind.outlet = some point)
    (distinct : (ports.map bitsOf).Nodup)
    (missing : ∀ port ∈ ports, design.table.find? (bitsOf port) = none) :
    ∃ later,
      ports.mapM addPortOutput design = .ok (List.range' kinds.length ports.length) later ∧
        later.Provided ∧
        later.HasShape (kinds ++ outputKinds (ports.map bitsOf) bodies.length)
          (bodies ++ List.replicate ports.length (.ofFilters []))
          (entries ++ ports.map fun port => (Bit.vectorText (bitsOf port), some port)) ∧
        (∀ id, kinds.length ≤ id → id < kinds.length + ports.length →
          (later.node id).wiring = .done none) ∧
        ∀ other, (design.node other).wiring = .done none →
          (later.node other).wiring = .done none := by
  induction ports generalizing design kinds bodies entries with
  | nil =>
      refine ⟨design, rfl, provided, by simpa [outputKinds] using shape, ?_, fun _ done => done⟩
      intro id above below
      exact absurd below (Nat.not_lt.mpr above)
  | cons port rest inductionHypothesis =>
      obtain ⟨notInRest, restDistinct⟩ := List.nodup_cons.mp distinct
      obtain ⟨kind, point, atPort, sameBits, outlet⟩ := known port (by simp)
      obtain ⟨middle, ran, middleProvided, middleShape, done, kept⟩ :=
        addPortOutput_run provided shape atPort outlet (by rw [sameBits]; exact missing port (by simp))
      rw [sameBits] at middleShape
      obtain ⟨later, ranOn, laterProvided, laterShape, restDone, restKept⟩ :=
        inductionHypothesis middleProvided middleShape (by
            intro other member
            obtain ⟨otherKind, otherPoint, atOther, facts⟩ := known other (by simp [member])
            refine ⟨otherKind, otherPoint, ?_, facts⟩
            rw [List.getElem?_append_left (List.getElem?_eq_some_iff.mp atOther).1, atOther])
          restDistinct (by
            intro other member
            have different : bitsOf other ≠ bitsOf port := fun same =>
              notInRest (same ▸ List.mem_map_of_mem member)
            have differentKey :
                (Bit.vectorText (bitsOf other) == Bit.vectorText (bitsOf port)) = false := by
              simpa using fun same => different (Bit.vectorText_injective same)
            have before := missing other (by simp [member])
            rw [shape.find?_eq] at before
            rw [middleShape.find?_eq, List.lookup_append, before]
            simp [List.lookup_cons, differentKey])
      refine ⟨later, ?_, laterProvided, ?_, ?_, fun other otherDone =>
        restKept other (kept other otherDone)⟩
      · rw [List.mapM_cons, bind_of_ok ran, bind_of_ok ranOn]
        simp [List.range'_succ]
      · simpa [outputKinds, List.zipIdx_cons, List.replicate_succ] using laterShape
      · intro id above below
        rcases Nat.eq_or_lt_of_le above with rfl | later
        · exact restKept _ done
        · apply restDone <;> simp at below ⊢ <;> omega

theorem lookup_inputEntries
    {vectors : List (List Bit)}
    (distinct : vectors.Nodup)
    {index : Nat}
    {bits : List Bit}
    (atIndex : vectors[index]? = some bits)
    (node : Nat) :
    (inputEntries vectors node).lookup (Bit.vectorText bits) = some (some (node + index)) := by
  induction vectors generalizing index node with
  | nil =>
      simp at atIndex
  | cons first rest inductionHypothesis =>
      obtain ⟨notInRest, restDistinct⟩ := List.nodup_cons.mp distinct
      simp only [inputEntries, List.zipIdx_cons, List.map_cons]
      cases index with
      | zero =>
          simp only [List.getElem?_cons_zero, Option.some.injEq] at atIndex
          simp [atIndex]
      | succ index =>
          rw [List.getElem?_cons_succ] at atIndex
          have different : (Bit.vectorText bits == Bit.vectorText first) = false := by
            simp only [beq_eq_false_iff_ne]
            intro same
            exact notInRest (Bit.vectorText_injective same ▸ List.mem_of_getElem? atIndex)
          have inRest := inductionHypothesis restDistinct atIndex (node + 1)
          rw [inputEntries] at inRest
          simp only [List.lookup_cons, different, inRest]
          congr 2
          omega

theorem lookup_inputEntries_of_not_mem
    {vectors : List (List Bit)}
    {bits : List Bit}
    (absent : bits ∉ vectors)
    (node : Nat) :
    (inputEntries vectors node).lookup (Bit.vectorText bits) = none := by
  rw [List.lookup_eq_none_iff]
  intro entry member
  obtain ⟨⟨other, otherNode⟩, listed, rfl⟩ := List.mem_map.mp member
  rw [bne_iff_ne]
  intro same
  exact absent (Bit.vectorText_injective same ▸ List.fst_mem_of_mem_zipIdx listed)

theorem getElem?_inputKinds
    (vectors : List (List Bit))
    (constant index : Nat) :
    (inputKinds vectors constant)[index]? =
      vectors[index]?.map fun bits => .input bits (constant + index) := by
  simp [inputKinds, List.getElem?_map, List.getElem?_zipIdx, Function.comp_def]

theorem getElem?_outputKinds
    (vectors : List (List Bit))
    (terminal index : Nat) :
    (outputKinds vectors terminal)[index]? =
      vectors[index]?.map fun bits => .output bits (terminal + index) := by
  simp [outputKinds, List.getElem?_map, List.getElem?_zipIdx, Function.comp_def]

/-- A memory asks only for its inputs. -/
theorem bits_mem_inputVectors
    (bank : Bank)
    {stage : Stage}
    (planned : stage ∈ bank.stages)
    {request : Request}
    (asked : request ∈ stage.requests) :
    request.bits ∈ bank.inputVectors := by
  simp only [Bank.stages, List.mem_cons, List.mem_map] at planned
  rcases planned with rfl | ⟨port, inRange, rfl⟩
  · simp only [List.mem_cons, List.not_mem_nil, or_false] at asked
    rcases asked with rfl | rfl | rfl | rfl <;> simp [Bank.inputVectors]
  · simp only [List.mem_singleton] at asked
    subst asked
    exact List.mem_append_right _ (List.mem_map_of_mem inRange)

/-- The nodes of the read ports of a memory. -/
def portKinds (bank : Bank) : List NodeKind :=
  (List.range bank.geometry.readPorts).map fun port =>
    .readPort 0 port (bank.portBits port) (bank.portOutput port)

/-- The nodes of a memory before its outputs are added. -/
def memoryKinds (bank : Bank) : List NodeKind :=
  .memory bank :: portKinds bank ++
    inputKinds bank.inputVectors (Bank.entityCount bank.geometry)

theorem getElem?_memoryKinds
    (bank : Bank)
    (index : Nat) :
    (memoryKinds bank)[1 + bank.geometry.readPorts + index]? =
      bank.inputVectors[index]?.map fun bits =>
        .input bits (Bank.entityCount bank.geometry + index) := by
  have before : (NodeKind.memory bank :: portKinds bank).length = 1 + bank.geometry.readPorts := by
    simp [portKinds]
    omega
  rw [memoryKinds, List.getElem?_append_right (by omega), before, Nat.add_sub_cancel_left,
    getElem?_inputKinds]

/-- A memory and its inputs provide for each other. -/
theorem provided_of_shape
    {bank : Bank}
    (distinct : bank.inputVectors.Nodup)
    (unwired : design.Unwired)
    (shape : design.HasShape (memoryKinds bank) bodies
      (inputEntries bank.inputVectors (1 + bank.geometry.readPorts))) :
    design.Provided where
  formed := unwired.formed
  woven := unwired.woven
  quiet id := by simp [unwired.idle]
  unfailed id failure := by simp [unwired.idle]
  resolved id request asked := by
    obtain ⟨stage, planned, member⟩ := asked
    have inRange : id < (memoryKinds bank).length :=
      shape.size_eq ▸ Requests.inRange ⟨stage, planned, member⟩
    rw [shape.kind_eq (List.getElem?_eq_getElem inRange)] at planned
    have listed : (memoryKinds bank)[id] ∈ memoryKinds bank := List.getElem_mem inRange
    generalize (memoryKinds bank)[id] = kind at planned listed
    simp only [memoryKinds, portKinds, inputKinds, List.cons_append, List.mem_cons,
      List.mem_append, List.mem_map] at listed
    rcases listed with rfl | ⟨_, -, rfl⟩ | ⟨_, -, rfl⟩
    · obtain ⟨index, atIndex⟩ :=
        List.getElem?_of_mem (bits_mem_inputVectors bank planned member)
      have atNode : (memoryKinds bank)[1 + bank.geometry.readPorts + index]? =
          some (.input request.bits (Bank.entityCount bank.geometry + index)) := by
        rw [getElem?_memoryKinds, atIndex]
        rfl
      have sameKind := shape.kind_eq atNode
      refine ⟨_, _, ?_, by rw [sameKind]; rfl, by rw [sameKind]; exact fun _ => rfl⟩
      rw [shape.find?_eq, lookup_inputEntries distinct atIndex]
    · cases planned
    · cases planned

/-- All nodes of a memory with its outputs. -/
def allKinds (bank : Bank) : List NodeKind :=
  memoryKinds bank ++
    outputKinds bank.outputVectors
      (Bank.entityCount bank.geometry + bank.inputVectors.length)

/-- All entities of a memory with its inputs and outputs. -/
def allBodies (bank : Bank) : List Body :=
  (Bank.part bank.geometry).bodies ++
    List.replicate bank.inputVectors.length (.ofCount 0) ++
    List.replicate bank.outputVectors.length (.ofFilters [])

/-- The producers that are registered for a memory. -/
def allEntries (bank : Bank) : List (String × Option Nat) :=
  inputEntries bank.inputVectors (1 + bank.geometry.readPorts) ++
    inputEntries bank.outputVectors 1

theorem length_bodies_part
    (geometry : Geometry) :
    (Bank.part geometry).bodies.length = Bank.entityCount geometry := by
  simp only [Bank.part, Bank.entityCount, Bank.rowBodies, Bank.portBodies, List.length_cons,
    List.length_append, List.length_flatMap, List.length_map, List.length_range, List.length_nil,
    List.map_const', List.sum_replicate_nat]
  rw [Nat.add_comm geometry.size 1]
  omega

theorem first_eq
    {cell : Cell}
    {first : Nat}
    {bank : Bank}
    (accepted : Bank.ofCell cell first = .ok bank) :
    bank.first = first := by
  simp only [Bank.ofCell, except_bind_eq_ok] at accepted
  obtain ⟨_, -, _, -, described⟩ := accepted
  cases described
  rfl

/-- A memory and its read ports are added to an empty design. -/
theorem addMemory_run
    {cell : Cell}
    {bank : Bank}
    (accepted : Bank.ofCell cell 0 = .ok bank) :
    ∃ later,
      addMemory cell {} = .ok (0, List.range' 1 bank.geometry.readPorts) later ∧
        later.Unwired ∧
        later.HasShape (.memory bank :: portKinds bank) (Bank.part bank.geometry).bodies [] := by
  have rows := (Bank.buildable_of_ofCell accepted).size
  let added := ({} : Design).push (Bank.part bank.geometry) (.memory bank)
  have wires : (NodeKind.memory bank).wires = (Bank.part bank.geometry).wiresAt 0 := by
    rw [NodeKind.wires, first_eq accepted]
  have addedUnwired : added.Unwired :=
    Unwired.empty.push wires (by intro _ _ _ _ same; cases same)
  have addedShape : added.HasShape [.memory bank] (Bank.part bank.geometry).bodies [] :=
    HasShape.empty.push _ _
  obtain ⟨later, ran, laterUnwired, laterShape⟩ :=
    mapM_addNode addedUnwired addedShape (List.range bank.geometry.readPorts)
      (fun port => .readPort 0 port (bank.portBits port) (bank.portOutput port)) (fun _ => rfl)
      (by rintro _ _ _ _ _ ⟨⟩; exact Nat.one_pos)
  refine ⟨later, ?_, laterUnwired, laterShape⟩
  rw [addMemory, bind_of_ok (get_run ({} : Design))]
  simp only [show Board.size (board {}) = 0 from rfl, accepted]
  have installed : installNode (Bank.part bank.geometry) (fun _ => .memory bank) {} =
      .ok 0 added := rfl
  rw [bind_of_ok installed, addPort_eq rows, bind_of_ok ran]
  simp

theorem length_inputVectors
    (bank : Bank) :
    bank.inputVectors.length = 4 + bank.geometry.readPorts := by
  simp [Bank.inputVectors]
  omega

theorem length_outputVectors
    (bank : Bank) :
    bank.outputVectors.length = bank.geometry.readPorts := by
  simp [Bank.outputVectors]

theorem length_memoryKinds
    (bank : Bank) :
    (memoryKinds bank).length = 5 + 2 * bank.geometry.readPorts := by
  simp [memoryKinds, portKinds, inputKinds, length_inputVectors]
  omega

theorem getElem?_memoryKinds_port
    (bank : Bank)
    {port : Nat}
    (inRange : port < bank.geometry.readPorts) :
    (memoryKinds bank)[1 + port]? =
      some (.readPort 0 port (bank.portBits port) (bank.portOutput port)) := by
  have inFront : 1 + port < (NodeKind.memory bank :: portKinds bank).length := by
    simp [portKinds]
    omega
  rw [memoryKinds, List.getElem?_append_left inFront, Nat.add_comm, List.getElem?_cons_succ]
  simp [portKinds, inRange]

theorem getElem?_allKinds
    {bank : Bank}
    {id : Nat}
    {kind : NodeKind}
    (found : (memoryKinds bank)[id]? = some kind) :
    (allKinds bank)[id]? = some kind := by
  rw [allKinds, List.getElem?_append_left (List.getElem?_eq_some_iff.mp found).1, found]

theorem getElem?_allKinds_output
    (bank : Bank)
    {port : Nat}
    (inRange : port < bank.geometry.readPorts) :
    (allKinds bank)[5 + 2 * bank.geometry.readPorts + port]? =
      some (.output (bank.portBits port)
        (Bank.entityCount bank.geometry + bank.inputVectors.length + port)) := by
  rw [allKinds, List.getElem?_append_right (by rw [length_memoryKinds]; omega),
    length_memoryKinds, Nat.add_sub_cancel_left, getElem?_outputKinds]
  simp [Bank.outputVectors, inRange]

theorem map_range'_outputVectors
    (bank : Bank) :
    (List.range' 1 bank.geometry.readPorts).map (fun node => bank.portBits (node - 1)) =
      bank.outputVectors := by
  simp [List.range'_eq_map_range, Bank.outputVectors]

theorem map_range'_inputEntries
    (bank : Bank) :
    (List.range' 1 bank.geometry.readPorts).map
        (fun node => (Bit.vectorText (bank.portBits (node - 1)), some node)) =
      inputEntries bank.outputVectors 1 := by
  apply List.ext_getElem
  · simp [inputEntries, Bank.outputVectors]
  · intro index inLeft inRight
    simp [inputEntries, Bank.outputVectors]

/-- Besides the memory, only the outputs have inputs to wire. -/
theorem le_of_isWired
    {bank : Bank}
    (shape : design.HasShape (allKinds bank) bodies entries)
    {id : Nat}
    (positive : 0 < id)
    (wired : (design.node id).kind.isWired) :
    (memoryKinds bank).length ≤ id := by
  by_contra inFront
  have inMemory : id < (memoryKinds bank).length := by omega
  have found : (allKinds bank)[id]? = some (memoryKinds bank)[id] := by
    rw [allKinds, List.getElem?_append_left inMemory, List.getElem?_eq_getElem]
  rw [shape.kind_eq found] at wired
  have listed : (memoryKinds bank)[id] ∈
      portKinds bank ++ inputKinds bank.inputVectors (Bank.entityCount bank.geometry) := by
    obtain ⟨id, rfl⟩ := Nat.exists_eq_succ_of_ne_zero (Nat.ne_of_gt positive)
    simp only [memoryKinds, List.cons_append, List.getElem_cons_succ]
    exact List.getElem_mem _
  generalize (memoryKinds bank)[id] = kind at wired listed
  simp only [portKinds, inputKinds, List.mem_append, List.mem_map] at listed
  rcases listed with ⟨_, -, rfl⟩ | ⟨_, -, rfl⟩ <;> cases wired

/-- A memory that is wired completely, with its inputs and outputs. -/
structure Complete (design : Design) (bank : Bank) : Prop where
  first_eq : bank.first = 0
  distinct : (bank.inputVectors ++ bank.outputVectors).Nodup
  provided : design.Provided
  shape : design.HasShape (allKinds bank) (allBodies bank) (allEntries bank)
  done : ∀ id, (design.node id).kind.isWired → (design.node id).wiring = .done none

/-- Wiring a memory succeeds, and all its nodes are wired completely. -/
theorem wire_run
    {spec : MemorySpec}
    {cell : Cell}
    {bank : Bank}
    (accepted : Bank.ofCell cell 0 = .ok bank)
    (vectors : inputVectors spec cell = bank.inputVectors)
    (distinct : (bank.inputVectors ++ bank.outputVectors).Nodup) :
    ∃ later,
      wire spec cell {} =
          .ok (0, List.range' (5 + 2 * bank.geometry.readPorts) bank.geometry.readPorts) later ∧
        Complete later bank := by
  obtain ⟨inputsDistinct, outputsDistinct, apart⟩ := List.nodup_append.mp distinct
  obtain ⟨withMemory, memoryRan, memoryUnwired, memoryShape⟩ := addMemory_run accepted
  obtain ⟨withInputs, inputsRan, inputsUnwired, inputsShape⟩ :=
    forM_registerInput memoryUnwired memoryShape bank.inputVectors inputsDistinct (by
      simp [memoryShape.find?_eq])
  have portsLength : (NodeKind.memory bank :: portKinds bank).length =
      1 + bank.geometry.readPorts := by
    simp [portKinds]
    omega
  rw [length_bodies_part, portsLength, List.nil_append] at inputsShape
  change withInputs.HasShape (memoryKinds bank) _ _ at inputsShape
  have provided := provided_of_shape inputsDistinct inputsUnwired inputsShape
  let ports := List.range' 1 bank.geometry.readPorts
  have portOf : ∀ node ∈ ports, ∃ port, port < bank.geometry.readPorts ∧ node = 1 + port := by
    intro node member
    obtain ⟨port, inRange, same⟩ := List.mem_range'.mp member
    exact ⟨port, inRange, by omega⟩
  obtain ⟨withOutputs, outputsRan, outputsProvided, outputsShape, outputsDone, kept⟩ :=
    mapM_addPortOutput provided inputsShape ports (fun node => bank.portBits (node - 1))
      (by
        intro node member
        obtain ⟨port, inRange, rfl⟩ := portOf node member
        exact ⟨_, _, getElem?_memoryKinds_port bank inRange, by simp [NodeKind.bits], rfl⟩)
      (by
        rw [map_range'_outputVectors]
        exact outputsDistinct)
      (by
        intro node member
        obtain ⟨port, inRange, rfl⟩ := portOf node member
        rw [inputsShape.find?_eq]
        apply lookup_inputEntries_of_not_mem
        intro input
        exact apart _ input _ (List.mem_map_of_mem (List.mem_range.mpr inRange)) (by simp))
  have portCount : ports.length = bank.outputVectors.length := by
    simp [ports, length_outputVectors]
  have shape : withOutputs.HasShape (allKinds bank) (allBodies bank) (allEntries bank) := by
    rw [map_range'_outputVectors, map_range'_inputEntries, List.length_append,
      length_bodies_part, List.length_replicate, portCount] at outputsShape
    exact outputsShape
  have memoryNode : (withOutputs.node 0).kind = .memory bank := shape.kind_eq rfl
  have wiredItself : withOutputs.wiredNode 0 = 0 := by
    rw [wiredNode, memoryNode]
  obtain ⟨later, connected, laterProvided, same, done, keptOn⟩ :=
    outputsProvided.connect (by rw [shape.size_eq]; exact Nat.succ_pos _ : 0 < withOutputs.nodes.size)
  rw [wiredItself] at done
  have laterShape := shape.sameParts same
  refine ⟨later, ?_, first_eq accepted, distinct, laterProvided, laterShape, ?_⟩
  · rw [wire, bind_of_ok memoryRan, vectors]
    simp only
    rw [bind_of_ok inputsRan, bind_of_ok outputsRan, bind_of_ok connected, portCount,
      length_memoryKinds, length_outputVectors]
    rfl
  · intro id wired
    rcases Nat.eq_zero_or_pos id with rfl | positive
    · exact done
    · have isOutput := le_of_isWired laterShape positive wired
      have inRange := inRange_of_isWired wired
      apply keptOn
      apply outputsDone id isOutput
      rw [same.size_eq, shape.size_eq, allKinds, List.length_append] at inRange
      simpa [outputKinds, portCount] using inRange

end CircuitNetwork.Blueprint
