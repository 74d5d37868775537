import CircuitNetwork.Proofs.Memory.Layout

namespace CircuitNetwork

/-!
# The networks of a memory

The wires of a memory with its inputs and outputs, by the roles of the entities
that they join, and the networks that they make: which endpoints share one.
-/

open Design

namespace Role

/-- The roles of the entities of the memory itself. -/
def Inner : Role → Prop
  | input _ | terminal _ => False
  | _ => True

/-- An endpoint of the entity with a role. -/
def point (geometry : Geometry) (role : Role) (port : Port) : Endpoint :=
  ⟨role.place geometry, port⟩

/-- The wires of a memory. -/
inductive Wire (geometry : Geometry) : Color → List (Role × Port) → Prop where
  | pulse {row} (inRange : row < geometry.size) :
      Wire geometry .green [(pulse, .two), (select row, .one)]
  | select {row} (inRange : row < geometry.size) :
      Wire geometry .green [(select row, .two), (latch row, .one), (hold row, .one)]
  | value {row} (inRange : row < geometry.size) :
      Wire geometry .green [(latch row, .two), (hold row, .two)]
  | feedback {row} (inRange : row < geometry.size) :
      Wire geometry .red [(hold row, .two), (hold row, .one), (latch row, .two)]
  | read {port row} (portInRange : port < geometry.readPorts) (inRange : row < geometry.size) :
      Wire geometry .green [(latch row, .two), (reader port row, .one)]
  | decoded {port row} (portInRange : port < geometry.readPorts) (inRange : row < geometry.size) :
      Wire geometry .red [(decode port, .two), (reader port row, .one)]
  | chain {port row} (color : Color) (portInRange : port < geometry.readPorts)
      (inRange : row + 1 < geometry.size) :
      Wire geometry color [(reader port row, .two), (reader port (row + 1), .two)]
  | clock :
      Wire geometry .red [(input 0, .one), (Role.pulse, .one)]
  | enable :
      Wire geometry .green [(input 3, .one), (Role.pulse, .one)]
  | address {row} (inRange : row < geometry.size) :
      Wire geometry .red [(input 1, .one), (Role.select row, .one)]
  | data {row} (inRange : row < geometry.size) :
      Wire geometry .red [(input 2, .one), (latch row, .one)]
  | readAddress {port} (portInRange : port < geometry.readPorts) :
      Wire geometry .red [(input (port + 4), .one), (decode port, .one)]
  | result {port} (portInRange : port < geometry.readPorts) :
      Wire geometry .red [(reader port (geometry.size - 1), .two), (terminal port, .one)]

/-- The networks of a memory. An endpoint without wires of a color is loose. -/
inductive Net where
  | clock
  | enable
  | pulse
  | address
  | data
  | select (row : Nat)
  | value (row : Nat)
  | readAddress (port : Nat)
  | decoded (port : Nat)
  | output (port : Nat)
  | loose
  deriving Repr, DecidableEq, Inhabited

/-- The red network of an endpoint. -/
def redNet : Role × Port → Net
  | (.pulse, .one) | (.input 0, .one) => .clock
  | (.select _, .one) | (.input 1, .one) => .address
  | (.latch _, .one) | (.input 2, .one) => .data
  | (.latch row, .two) | (.hold row, _) => .value row
  | (.decode port, .one) | (.input (port + 4), .one) => .readAddress port
  | (.decode port, .two) | (.reader port _, .one) => .decoded port
  | (.reader port _, .two) | (.terminal port, .one) => .output port
  | _ => .loose

/-- The green network of an endpoint. The outputs of the readers of a port are only joined if there
are several rows. -/
def greenNet (geometry : Geometry) : Role × Port → Net
  | (.pulse, .one) | (.input 3, .one) => .enable
  | (.pulse, .two) | (.select _, .one) => .pulse
  | (.select row, .two) | (.latch row, .one) | (.hold row, .one) => .select row
  | (.latch row, .two) | (.hold row, .two) | (.reader _ row, .one) => .value row
  | (.reader port _, .two) => if geometry.size = 1 then .loose else .output port
  | _ => .loose

/-- The network of an endpoint. -/
def net (geometry : Geometry) : Color → Role × Port → Net
  | .red => redNet
  | .green => greenNet geometry

/-- An endpoint on each network, which all others are wired to. -/
def hub (geometry : Geometry) : Color → Net → Role × Port
  | _, .clock => (.input 0, .one)
  | _, .address => (.input 1, .one)
  | _, .data => (.input 2, .one)
  | _, .enable => (.input 3, .one)
  | _, .readAddress port => (.input (port + 4), .one)
  | _, .pulse | _, .loose => (.pulse, .two)
  | _, .select row => (.select row, .two)
  | .red, .value row => (.hold row, .two)
  | .green, .value row => (.latch row, .two)
  | _, .decoded port => (.decode port, .two)
  | _, .output port => (.reader port (geometry.size - 1), .two)

/-- A wire joins endpoints of one network. -/
theorem Wire.net_eq
    {geometry : Geometry}
    {color : Color}
    {ends : List (Role × Port)}
    (wire : Wire geometry color ends) :
    ∀ first ∈ ends, ∀ second ∈ ends,
      net geometry color first = net geometry color second := by
  cases wire with
  | @chain port row color portInRange inRange =>
      have several : geometry.size ≠ 1 := by omega
      cases color <;> simp [net, redNet, greenNet, several]
  | _ => simp [net, redNet, greenNet]

theorem Wire.net_ne_loose
    {geometry : Geometry}
    {color : Color}
    {ends : List (Role × Port)}
    (wire : Wire geometry color ends) :
    ∀ point ∈ ends, net geometry color point ≠ .loose := by
  cases wire with
  | @chain port row color portInRange inRange =>
      have several : geometry.size ≠ 1 := by omega
      cases color <;> simp [net, redNet, greenNet, several]
  | _ => simp [net, redNet, greenNet]

/-- A wire joins endpoints of entities that are there. -/
theorem Wire.in_ends
    {geometry : Geometry}
    (rows : 1 ≤ geometry.size)
    {color : Color}
    {ends : List (Role × Port)}
    (wire : Wire geometry color ends) :
    ∀ point ∈ ends, point.1.In geometry := by
  cases wire <;> simp [In] <;> omega

/-- A wire between the endpoints of roles. -/
def wireOf (geometry : Geometry) (color : Color) (ends : List (Role × Port)) :
    Color × List Endpoint :=
  (color, ends.map fun (role, port) => role.point geometry port)

end Role

open Role

/-- The wires inside a memory. -/
theorem Bank.mem_part_wires
    {geometry : Geometry}
    {wire : Color × List Endpoint}
    (inside : wire ∈ (Bank.part geometry).wires) :
    ∃ ends,
      Wire geometry wire.1 ends ∧ wire = wireOf geometry wire.1 ends ∧
        ∀ point ∈ ends, point.1.Inner := by
  simp only [Bank.part, Bank.wires_readChain, List.mem_append, List.mem_flatMap,
    List.mem_range] at inside
  rcases inside with ⟨row, inRange, member⟩ | ⟨port, portInRange, row, inRange, member⟩
  · simp only [Bank.rowWires, List.mem_cons, List.not_mem_nil, or_false] at member
    rcases member with rfl | rfl | rfl | rfl
    · exact ⟨_, .pulse inRange, rfl, by simp [Role.Inner]⟩
    · exact ⟨_, .select inRange, rfl, by simp [Role.Inner]⟩
    · exact ⟨_, .value inRange, rfl, by simp [Role.Inner]⟩
    · exact ⟨_, .feedback inRange, rfl, by simp [Role.Inner]⟩
  · simp only [Bank.readWires, List.mem_append, List.mem_cons, List.not_mem_nil, or_false] at member
    rcases member with (rfl | rfl) | chained
    · exact ⟨_, .read portInRange inRange, rfl, by simp [Role.Inner]⟩
    · exact ⟨_, .decoded portInRange inRange, rfl, by simp [Role.Inner]⟩
    · cases row with
      | zero =>
          simp at chained
      | succ row =>
          simp only [Nat.succ_ne_zero, ↓reduceIte, List.mem_map] at chained
          obtain ⟨color, -, rfl⟩ := chained
          refine ⟨_, .chain color portInRange inRange, ?_, by simp [Role.Inner]⟩
          simp [wireOf, point, place, Bank.readAt]

/-- The data of a read port comes from its last reader. -/
theorem Bank.portOutput_eq
    {bank : Bank}
    (first : bank.first = 0)
    (rows : 1 ≤ bank.geometry.size)
    (port : Nat) :
    bank.portOutput port =
      (reader port (bank.geometry.size - 1)).point bank.geometry .two := by
  simp only [Bank.portOutput, first, point, place, Bank.readAt, Endpoint.mk.injEq, and_true]
  omega

namespace Blueprint.Complete

variable {design : Design} {bank : Bank}

/-- The primary input that produces a bit vector. -/
theorem find?_input
    (complete : Complete design bank)
    {index : Nat}
    {bits : List Bit}
    (atIndex : bank.inputVectors[index]? = some bits) :
    design.table.find? bits = some (some (1 + bank.geometry.readPorts + index)) ∧
      (design.node (1 + bank.geometry.readPorts + index)).kind =
        .input bits ((input index).place bank.geometry) := by
  have distinct := (List.nodup_append.mp complete.distinct).1
  have found := getElem?_memoryKinds bank index
  rw [atIndex] at found
  refine ⟨?_, complete.shape.kind_eq (getElem?_allKinds found)⟩
  rw [complete.shape.find?_eq, allEntries, List.lookup_append,
    lookup_inputEntries distinct atIndex]
  rfl

/-- A request for the vector of an input is answered by that input. -/
theorem resolves_input
    (complete : Complete design bank)
    {request : Request}
    (index : Nat)
    (atIndex : bank.inputVectors[index]? = some request.bits) :
    design.Resolves request (1 + bank.geometry.readPorts + index)
      ((input index).point bank.geometry .one) := by
  obtain ⟨found, kind⟩ := complete.find?_input atIndex
  exact ⟨found, by rw [kind]; rfl, by rw [kind]; exact fun _ => rfl⟩

/-- A request for the vector of a read port is answered by that port. -/
theorem resolves_port
    (complete : Complete design bank)
    (rows : 1 ≤ bank.geometry.size)
    {request : Request}
    {port : Nat}
    (inRange : port < bank.geometry.readPorts)
    (bits : request.bits = bank.portBits port)
    (anyKind : request.fromInput = false) :
    design.Resolves request (1 + port)
      ((reader port (bank.geometry.size - 1)).point bank.geometry .two) := by
  obtain ⟨-, distinct, apart⟩ := List.nodup_append.mp complete.distinct
  have found := getElem?_allKinds (getElem?_memoryKinds_port bank inRange)
  have sameKind := complete.shape.kind_eq found
  have atPort : bank.outputVectors[port]? = some (bank.portBits port) := by
    simp [Bank.outputVectors, inRange]
  refine ⟨?_, ?_, by simp [anyKind]⟩
  · have notInput : bank.portBits port ∉ bank.inputVectors := fun isInput =>
      apart _ isInput _ (List.mem_of_getElem? atPort) rfl
    rw [complete.shape.find?_eq, bits, allEntries, List.lookup_append,
      lookup_inputEntries_of_not_mem notInput, lookup_inputEntries distinct atPort]
    rfl
  · rw [sameKind, NodeKind.outlet, Bank.portOutput_eq complete.first_eq rows]

/-- A node with wires or requests is the memory or an output. -/
theorem kind_eq
    (complete : Complete design bank)
    {id : Nat}
    (inRange : id < design.nodes.size) :
    (design.node id).kind = .memory bank ∨
      (∃ port, port < bank.geometry.readPorts ∧
        (design.node id).kind =
          .output (bank.portBits port) ((terminal port).place bank.geometry)) ∨
      ((design.node id).kind.wires = [] ∧ (design.node id).kind.stages = []) := by
  rw [complete.shape.size_eq] at inRange
  rw [complete.shape.kind_eq (List.getElem?_eq_getElem inRange)]
  have listed := List.getElem_mem inRange
  generalize (allKinds bank)[id] = kind at listed
  simp only [allKinds, memoryKinds, portKinds, inputKinds, List.mem_append, List.mem_cons,
    List.mem_map] at listed
  rcases listed with ((rfl | ⟨_, -, rfl⟩) | ⟨_, -, rfl⟩) | isOutput
  · exact .inl rfl
  · exact .inr (.inr ⟨rfl, rfl⟩)
  · exact .inr (.inr ⟨rfl, rfl⟩)
  · obtain ⟨port, atPort⟩ := List.getElem?_of_mem isOutput
    rw [getElem?_outputKinds] at atPort
    obtain ⟨bits, atVector, rfl⟩ := Option.map_eq_some_iff.mp atPort
    have portInRange : port < bank.geometry.readPorts := by
      rw [← length_outputVectors]
      exact (List.getElem?_eq_some_iff.mp atVector).1
    have sameBits : bits = bank.portBits port := by
      simpa [Bank.outputVectors, portInRange, eq_comm] using atVector
    refine .inr (.inl ⟨port, portInRange, ?_⟩)
    rw [sameBits, length_inputVectors]
    rfl

/-- The wires from the inputs of a memory. -/
theorem wire_of_memory_supply
    (complete : Complete design bank)
    {id : Nat}
    (memory : (design.node id).kind = .memory bank)
    {wire : Color × List Endpoint}
    (supplied : design.Supply id wire) :
    ∃ ends, Wire bank.geometry wire.1 ends ∧ wire = wireOf bank.geometry wire.1 ends := by
  obtain ⟨planned, laid, asked, resolved⟩ := supplied
  rw [memory] at planned
  simp only [NodeKind.stages, Bank.stages, complete.first_eq, Nat.zero_add, List.mem_cons,
    List.mem_map, List.mem_range] at planned
  rcases planned with rfl | ⟨port, portInRange, rfl⟩
  · simp only [List.mem_cons, List.mem_flatMap, List.mem_range, List.not_mem_nil, or_false] at laid
    rcases laid with rfl | rfl | ⟨row, inRange, rfl | rfl⟩
    · cases asked
      rw [(resolved.unique (complete.resolves_input 0 rfl)).2]
      exact ⟨_, .clock, rfl⟩
    · cases asked
      rw [(resolved.unique (complete.resolves_input 3 rfl)).2]
      exact ⟨_, .enable, rfl⟩
    · cases asked
      rw [(resolved.unique (complete.resolves_input 1 rfl)).2]
      exact ⟨_, .address inRange, rfl⟩
    · cases asked
      rw [(resolved.unique (complete.resolves_input 2 rfl)).2]
      exact ⟨_, .data inRange, rfl⟩
  · simp only [List.mem_singleton] at laid
    subst laid
    cases asked
    have atPort : bank.inputVectors[port + 4]? = some (bank.portAddress port) := by
      simp [Bank.inputVectors, portInRange]
    rw [(resolved.unique (complete.resolves_input _ atPort)).2]
    exact ⟨_, .readAddress portInRange, rfl⟩

theorem wire_of_output_supply
    (complete : Complete design bank)
    (rows : 1 ≤ bank.geometry.size)
    {id port : Nat}
    (portInRange : port < bank.geometry.readPorts)
    (output : (design.node id).kind =
      .output (bank.portBits port) ((terminal port).place bank.geometry))
    {wire : Color × List Endpoint}
    (supplied : design.Supply id wire) :
    ∃ ends, Wire bank.geometry wire.1 ends ∧ wire = wireOf bank.geometry wire.1 ends := by
  obtain ⟨planned, laid, asked, resolved⟩ := supplied
  rw [output] at planned
  simp only [NodeKind.stages, List.mem_singleton] at planned
  subst planned
  simp only [List.mem_singleton] at laid
  subst laid
  cases asked
  rw [(resolved.unique (complete.resolves_port rows portInRange rfl rfl)).2]
  exact ⟨_, .result portInRange, rfl⟩

theorem wiresAt_zero
    (part : Part) :
    part.wiresAt 0 = part.wires := by
  simp [Part.wiresAt, Endpoint.shift]

/-- All wires of the design are wires of the memory. -/
theorem wire_of_owns
    (complete : Complete design bank)
    (rows : 1 ≤ bank.geometry.size)
    {wire : Color × List Endpoint}
    (owned : design.Owns wire) :
    ∃ ends, Wire bank.geometry wire.1 ends ∧ wire = wireOf bank.geometry wire.1 ends := by
  obtain ⟨id, inRange, inside | supplied⟩ := owned
  · rcases complete.kind_eq inRange with memory | ⟨port, -, output⟩ | ⟨none, -⟩
    · rw [memory, NodeKind.wires, complete.first_eq, wiresAt_zero] at inside
      obtain ⟨ends, wire, same, -⟩ := Bank.mem_part_wires inside
      exact ⟨ends, wire, same⟩
    · rw [output] at inside
      cases inside
    · rw [none] at inside
      cases inside
  · rcases complete.kind_eq inRange with memory | ⟨port, portInRange, output⟩ | ⟨-, none⟩
    · exact complete.wire_of_memory_supply memory supplied
    · exact complete.wire_of_output_supply rows portInRange output supplied
    · obtain ⟨planned, -, -, -⟩ := supplied
      rw [none] at planned
      cases planned

/-- The wires inside the memory are laid. -/
theorem carries_inside
    (complete : Complete design bank)
    {wire : Color × List Endpoint}
    (inside : wire ∈ (Bank.part bank.geometry).wires) :
    Carries design.board wire := by
  have memory : (design.node 0).kind = .memory bank := complete.shape.kind_eq rfl
  have inRange : 0 < design.nodes.size := by
    rw [complete.shape.size_eq]
    exact Nat.succ_pos _
  apply complete.provided.woven.inside 0 inRange
  rw [memory, NodeKind.wires, complete.first_eq, wiresAt_zero]
  exact inside

/-- The wires from the inputs of the memory are laid. -/
theorem carries_memory_tie
    (complete : Complete design bank)
    {stage : Stage}
    (planned : stage ∈ bank.stages)
    (color : Color)
    (source place : Nat)
    (laid : ⟨color, source, ⟨bank.first + place, .one⟩⟩ ∈ stage.ties)
    {request : Request}
    (asked : stage.requests[source]? = some request)
    (index : Nat)
    (atIndex : bank.inputVectors[index]? = some request.bits) :
    Carries design.board (color, [(input index).point bank.geometry .one, ⟨place, .one⟩]) := by
  have memory : (design.node 0).kind = .memory bank := complete.shape.kind_eq rfl
  have done := complete.done 0 (by rw [memory]; rfl)
  rw [complete.first_eq, Nat.zero_add] at laid
  apply (complete.provided.woven.settled 0 done).carried
  refine .tie ?_ laid asked (complete.resolves_input index atIndex)
  rw [memory]
  exact planned

/-- All wires of the memory are laid. -/
theorem carries_of_wire
    (complete : Complete design bank)
    (rows : 1 ≤ bank.geometry.size)
    {color : Color}
    {ends : List (Role × Port)}
    (wire : Wire bank.geometry color ends) :
    Carries design.board (wireOf bank.geometry color ends) := by
  have inRow {row : Nat} (inRange : row < bank.geometry.size) {wire : Color × List Endpoint}
      (member : wire ∈ Bank.rowWires row) : Carries design.board wire := by
    apply complete.carries_inside
    simp only [Bank.part, List.mem_append, List.mem_flatMap, List.mem_range]
    exact .inl ⟨row, inRange, member⟩
  have inPort {port row : Nat} (portInRange : port < bank.geometry.readPorts)
      (inRange : row < bank.geometry.size) {wire : Color × List Endpoint}
      (member : wire ∈ Bank.readWires bank.geometry port row) : Carries design.board wire := by
    apply complete.carries_inside
    simp only [Bank.part, Bank.wires_readChain, List.mem_append, List.mem_flatMap, List.mem_range]
    exact .inr ⟨port, portInRange, row, inRange, member⟩
  cases wire with
  | pulse inRange => exact inRow inRange (by simp [Bank.rowWires, wireOf, point, place])
  | select inRange => exact inRow inRange (by simp [Bank.rowWires, wireOf, point, place])
  | value inRange => exact inRow inRange (by simp [Bank.rowWires, wireOf, point, place])
  | feedback inRange => exact inRow inRange (by simp [Bank.rowWires, wireOf, point, place])
  | read portInRange inRange =>
      exact inPort portInRange inRange (by simp [Bank.readWires, wireOf, point, place])
  | decoded portInRange inRange =>
      exact inPort portInRange inRange (by simp [Bank.readWires, wireOf, point, place])
  | chain color portInRange inRange =>
      refine inPort portInRange inRange ?_
      cases color <;> simp [Bank.readWires, wireOf, point, place, Bank.readAt, Color.all]
  | clock => exact complete.carries_memory_tie List.mem_cons_self .red 0 0 (by simp) rfl 0 rfl
  | enable => exact complete.carries_memory_tie List.mem_cons_self .green 1 0 (by simp) rfl 3 rfl
  | @address row inRange =>
      refine complete.carries_memory_tie List.mem_cons_self .red 2 (Bank.selectAt row) ?_ rfl 1 rfl
      simp only [List.mem_cons, List.mem_flatMap, List.mem_range]
      exact .inr (.inr ⟨row, inRange, .inl rfl⟩)
  | @data row inRange =>
      refine complete.carries_memory_tie List.mem_cons_self .red 3 (Bank.latchAt row) ?_ rfl 2 rfl
      simp only [List.mem_cons, List.mem_flatMap, List.mem_range]
      exact .inr (.inr ⟨row, inRange, .inr (.inl rfl)⟩)
  | @readAddress port portInRange =>
      have atPort : bank.inputVectors[port + 4]? = some (bank.portAddress port) := by
        simp [Bank.inputVectors, portInRange]
      exact complete.carries_memory_tie
        (List.mem_cons_of_mem _ (List.mem_map_of_mem (List.mem_range.mpr portInRange))) .red 0
        (Bank.addressAt bank.geometry port) (by simp) rfl (port + 4) atPort
  | @result port portInRange =>
      have output := complete.shape.kind_eq (getElem?_allKinds_output bank portInRange)
      rw [length_inputVectors] at output
      have done := complete.done _ (by rw [output]; rfl)
      apply (complete.provided.woven.settled _ done).carried
      let request : Request :=
        { label := "output " ++ Bit.vectorText (bank.portBits port), bits := bank.portBits port }
      let tie : Tie := ⟨.red, 0, (terminal port).point bank.geometry .one⟩
      have resolved : design.Resolves request _ _ :=
        complete.resolves_port rows portInRange rfl rfl
      have planned : ⟨[request], [tie]⟩ ∈
          (design.node (5 + 2 * bank.geometry.readPorts + port)).kind.stages := by
        rw [output]
        exact List.mem_singleton.mpr rfl
      exact .tie planned (List.mem_singleton.mpr rfl) rfl resolved

/-- Endpoints that share a network of the board are on the same network of the memory. -/
theorem net_eq_of_joined
    (complete : Complete design bank)
    (rows : 1 ≤ bank.geometry.size)
    {color : Color}
    {role other : Role}
    (present : role.In bank.geometry)
    (otherPresent : other.In bank.geometry)
    {port otherPort : Port}
    (joined : design.board.Joined color (role.point bank.geometry port)
      (other.point bank.geometry otherPort)) :
    net bank.geometry color (role, port) = net bank.geometry color (other, otherPort) := by
  let label (point : Endpoint) : Net :=
    net bank.geometry color (ofPlace bank.geometry point.entity, point.port)
  have labelOf {role : Role} (present : role.In bank.geometry) (port : Port) :
      label (role.point bank.geometry port) = net bank.geometry color (role, port) := by
    simp only [label, point, ofPlace_place present]
  obtain ⟨wires, spans, owned⟩ := complete.provided.woven.spanned
  rw [← labelOf present, ← labelOf otherPresent]
  refine spans.label_eq ?_ joined
  intro points member first firstMember second secondMember
  obtain ⟨ends, wire, same⟩ := complete.wire_of_owns rows (owned _ member)
  simp only [wireOf, Prod.mk.injEq, true_and] at same
  subst same
  obtain ⟨firstEnd, firstListed, rfl⟩ := List.mem_map.mp firstMember
  obtain ⟨secondEnd, secondListed, rfl⟩ := List.mem_map.mp secondMember
  rw [labelOf (wire.in_ends rows _ firstListed), labelOf (wire.in_ends rows _ secondListed)]
  exact wire.net_eq _ firstListed _ secondListed

/-- An endpoint without wires shares no network. -/
theorem net_ne_loose_of_joined
    (complete : Complete design bank)
    (rows : 1 ≤ bank.geometry.size)
    {color : Color}
    {role : Role}
    (present : role.In bank.geometry)
    {port : Port}
    {other : Endpoint}
    (joined : design.board.Joined color (role.point bank.geometry port) other) :
    net bank.geometry color (role, port) ≠ .loose := by
  obtain ⟨wires, spans, owned⟩ := complete.provided.woven.spanned
  obtain ⟨_, ⟨points, member, listed, -⟩, -⟩ :=
    Relation.TransGen.head'_iff.mp (spans.joined_iff.mp joined)
  obtain ⟨ends, wire, same⟩ := complete.wire_of_owns rows (owned _ member)
  simp only [wireOf, Prod.mk.injEq, true_and] at same
  subst same
  obtain ⟨⟨endRole, endPort⟩, endListed, endPoint⟩ := List.mem_map.mp listed
  have endPresent : endRole.In bank.geometry := wire.in_ends rows _ endListed
  simp only [point, Endpoint.mk.injEq] at endPoint
  have sameRole : endRole = role := by
    rw [← ofPlace_place endPresent, endPoint.1, ofPlace_place present]
  rw [← sameRole, ← endPoint.2]
  exact wire.net_ne_loose _ endListed

theorem joined_of_wire
    (complete : Complete design bank)
    (rows : 1 ≤ bank.geometry.size)
    {color : Color}
    {ends : List (Role × Port)}
    (wire : Wire bank.geometry color ends)
    (first second : Role × Port)
    (firstMember : first ∈ ends)
    (secondMember : second ∈ ends) :
    design.board.Joined color (first.1.point bank.geometry first.2)
      (second.1.point bank.geometry second.2) :=
  complete.carries_of_wire rows wire _ (List.mem_map_of_mem firstMember) _
    (List.mem_map_of_mem secondMember)

/-- The outputs of the readers of a port are joined, from one row to the next. -/
theorem joined_readers
    (complete : Complete design bank)
    (rows : 1 ≤ bank.geometry.size)
    (color : Color)
    {port row : Nat}
    (portInRange : port < bank.geometry.readPorts)
    (steps : Nat)
    (inRange : row + 1 + steps < bank.geometry.size) :
    design.board.Joined color ((reader port row).point bank.geometry .two)
      ((reader port (row + 1 + steps)).point bank.geometry .two) := by
  induction steps with
  | zero =>
      exact complete.joined_of_wire rows (.chain color portInRange inRange) (reader port row, .two)
        (reader port (row + 1), .two) (by simp) (by simp)
  | succ steps inductionHypothesis =>
      refine (inductionHypothesis (by omega)).trans ?_
      exact complete.joined_of_wire rows (.chain color portInRange inRange)
        (reader port (row + 1 + steps), .two) (reader port (row + 1 + steps + 1), .two)
        (by simp) (by simp)

/-- The outputs of the readers of a port are joined to the last of them. -/
theorem joined_last_reader
    (complete : Complete design bank)
    {color : Color}
    {port row : Nat}
    (portInRange : port < bank.geometry.readPorts)
    (inRange : row < bank.geometry.size)
    (laid : net bank.geometry color (reader port row, .two) ≠ .loose) :
    design.board.Joined color ((reader port row).point bank.geometry .two)
      ((reader port (bank.geometry.size - 1)).point bank.geometry .two) := by
  have rows : 1 ≤ bank.geometry.size := by omega
  by_cases isLast : row = bank.geometry.size - 1
  · subst isLast
    cases color with
    | red =>
        exact complete.joined_of_wire rows (.result portInRange) (reader port _, .two)
          (reader port _, .two) (by simp) (by simp)
    | green =>
        have several : bank.geometry.size ≠ 1 := by
          intro single
          simp [net, greenNet, single] at laid
        obtain ⟨before, sizeEq⟩ : ∃ before, bank.geometry.size = before + 2 :=
          ⟨bank.geometry.size - 2, by omega⟩
        have chained : before + 1 < bank.geometry.size := by omega
        rw [show bank.geometry.size - 1 = before + 1 by omega]
        exact complete.joined_of_wire rows (.chain .green portInRange chained)
          (reader port _, .two) (reader port _, .two) (by simp) (by simp)
  · have joined := complete.joined_readers rows color portInRange
      (bank.geometry.size - 2 - row) (show row + 1 + _ < _ by omega)
    rwa [show row + 1 + (bank.geometry.size - 2 - row) = bank.geometry.size - 1 by omega] at joined

/-- The endpoints of a red network are joined to its hub. -/
theorem joined_red_hub
    (complete : Complete design bank)
    (rows : 1 ≤ bank.geometry.size)
    {point : Role × Port}
    (present : point.1.In bank.geometry)
    (laid : redNet point ≠ .loose) :
    design.board.Joined .red (point.1.point bank.geometry point.2)
      ((hub bank.geometry .red (redNet point)).1.point bank.geometry
        (hub bank.geometry .red (redNet point)).2) := by
  have wired {ends : List (Role × Port)} (wire : Wire bank.geometry .red ends) :=
    complete.joined_of_wire rows wire
  fun_cases redNet point with
  | case1 => exact wired .clock _ _ (by simp) (by simp [hub])
  | case2 => exact wired .clock _ _ (by simp) (by simp [hub])
  | case3 row => exact wired (.address present) _ _ (by simp) (by simp [hub])
  | case4 => exact wired (.address rows) _ _ (by simp) (by simp [hub])
  | case5 row => exact wired (.data present) _ _ (by simp) (by simp [hub])
  | case6 => exact wired (.data rows) _ _ (by simp) (by simp [hub])
  | case7 row => exact wired (.feedback present) _ _ (by simp) (by simp [hub])
  | case8 row port => cases port <;> exact wired (.feedback present) _ _ (by simp) (by simp [hub])
  | case9 port => exact wired (.readAddress present) _ _ (by simp) (by simp [hub])
  | case10 port =>
      exact wired (.readAddress (show port < _ by simp [In] at present; omega)) _ _
        (by simp) (by simp [hub])
  | case11 port => exact wired (.decoded present rows) _ _ (by simp) (by simp [hub])
  | case12 port row => exact wired (.decoded present.1 present.2) _ _ (by simp) (by simp [hub])
  | case13 port row => exact complete.joined_last_reader present.1 present.2 laid
  | case14 port => exact wired (.result present) _ _ (by simp) (by simp [hub])
  | case15 => simp_all [redNet]

/-- The endpoints of a green network are joined to its hub. -/
theorem joined_green_hub
    (complete : Complete design bank)
    (rows : 1 ≤ bank.geometry.size)
    {point : Role × Port}
    (present : point.1.In bank.geometry)
    (laid : greenNet bank.geometry point ≠ .loose) :
    design.board.Joined .green (point.1.point bank.geometry point.2)
      ((hub bank.geometry .green (greenNet bank.geometry point)).1.point bank.geometry
        (hub bank.geometry .green (greenNet bank.geometry point)).2) := by
  have wired {ends : List (Role × Port)} (wire : Wire bank.geometry .green ends) :=
    complete.joined_of_wire rows wire
  fun_cases greenNet bank.geometry point with
  | case1 => exact wired .enable _ _ (by simp) (by simp [hub])
  | case2 => exact wired .enable _ _ (by simp) (by simp [hub])
  | case3 => exact wired (.pulse rows) _ _ (by simp) (by simp [hub])
  | case4 row => exact wired (.pulse present) _ _ (by simp) (by simp [hub])
  | case5 row => exact wired (.select present) _ _ (by simp) (by simp [hub])
  | case6 row => exact wired (.select present) _ _ (by simp) (by simp [hub])
  | case7 row => exact wired (.select present) _ _ (by simp) (by simp [hub])
  | case8 row => exact wired (.value present) _ _ (by simp) (by simp [hub])
  | case9 row => exact wired (.value present) _ _ (by simp) (by simp [hub])
  | case10 port row => exact wired (.read present.1 present.2) _ _ (by simp) (by simp [hub])
  | case11 port row single => simp [greenNet, single] at laid
  | case12 port row several => exact complete.joined_last_reader present.1 present.2 laid
  | case13 => simp_all [greenNet]

/-- The endpoints of a network are joined to its hub. -/
theorem joined_hub
    (complete : Complete design bank)
    (rows : 1 ≤ bank.geometry.size)
    {color : Color}
    (point : Role × Port)
    (present : point.1.In bank.geometry)
    (laid : net bank.geometry color point ≠ .loose) :
    design.board.Joined color (point.1.point bank.geometry point.2)
      ((hub bank.geometry color (net bank.geometry color point)).1.point bank.geometry
        (hub bank.geometry color (net bank.geometry color point)).2) := by
  cases color with
  | red => exact complete.joined_red_hub rows present laid
  | green => exact complete.joined_green_hub rows present laid

/-- Which endpoints of a memory share a network. -/
theorem joined_iff
    (complete : Complete design bank)
    (rows : 1 ≤ bank.geometry.size)
    {color : Color}
    {role other : Role}
    (present : role.In bank.geometry)
    (otherPresent : other.In bank.geometry)
    {port otherPort : Port} :
    design.board.Joined color (role.point bank.geometry port)
        (other.point bank.geometry otherPort) ↔
      net bank.geometry color (role, port) ≠ .loose ∧
        net bank.geometry color (role, port) = net bank.geometry color (other, otherPort) := by
  constructor
  · intro joined
    exact ⟨complete.net_ne_loose_of_joined rows present joined,
      complete.net_eq_of_joined rows present otherPresent joined⟩
  · rintro ⟨laid, same⟩
    have toHub := complete.joined_hub rows (role, port) present laid
    have fromHub := complete.joined_hub rows (other, otherPort) otherPresent (same ▸ laid)
    rw [← same] at fromHub
    exact toHub.trans fromHub.symm

end Blueprint.Complete

end CircuitNetwork
