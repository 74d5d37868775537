import CircuitNetwork.Proofs.Synthesis.Guards

namespace CircuitNetwork

/-!
# Memories are made and wired safely

A memory cell is refused with an ordinary failure, or a memory is made for it. Its
combinators are well formed, its wires join ports that are there, every read port
ends in the decider of the last row, and the data of the read ports is cut out of
the data connection, which it fills. However the
design goes on and whatever table is used, connecting the memory never asks for a
piece of a connection that does not exist and never lays a wire to nothing.
-/

/-! ## Guarded parts -/

/-- The constant of an operand. -/
def Operand.constant? : Operand → Option Int32
  | signal _ => none
  | constant value => some value

/-- What a decider is asked for with. -/
def Decider.draft (condition : Decider) : ConditionDraft where
  first := condition.first
  second := condition.second.signal?
  constant := condition.second.constant?
  symbol := condition.comparator.symbol
  output := condition.output

/-- What an arithmetic combinator is asked for with. -/
def Arithmetic.draft (condition : Arithmetic) : ConditionDraft where
  first := condition.first
  second := condition.second.signal?
  constant := condition.second.constant?
  symbol := condition.operator.symbol
  output := condition.output

/-- Make an entity from what it is asked for with. -/
def Body.make : Body → Except Misuse Body
  | decider condition =>
      ((condition.draft.decider condition.copyCount).mapError .malformedDecider).map .decider
  | arithmetic condition =>
      ((condition.draft.arithmetic).mapError .malformedArithmetic).map .arithmetic
  | body => .ok body

theorem make_selector
    {first output : Signal}
    (comparator : Comparator)
    (constant : Int32)
    (copyCount : Bool)
    (reads : first.isZero = false)
    (writes : output.isZero = false) :
    (selector comparator first constant copyCount output).make =
      .ok (selector comparator first constant copyCount output) := by
  have known : Comparator.ofSymbol? comparator.symbol = some comparator := by
    cases comparator <;> rfl
  simp [selector, Body.make, Decider.draft, ConditionDraft.decider, ConditionDraft.check,
    ConditionDraft.operand?, Operand.signal?, Operand.constant?, reads, writes, known,
    Except.mapError, Except.map]

theorem make_transformer : transformer.make = .ok transformer := by
  rfl

/-- Only outputs are second ports. -/
theorem Board.output_eq_of_hasPort_two
    {board : Board}
    {entity : Nat}
    (hasPort : board.HasPort ⟨entity, .two⟩) :
    board.output entity = ⟨entity, .two⟩ := by
  have isPort := hasPort.isPort
  unfold Body.ports at isPort
  split at isPort
  · cases List.mem_singleton.mp isPort
  · rename_i isOutput
    rw [output, isOutput]

namespace Board

/-- Make the entities of a part and connect its wires, the ends of which must be there. -/
def guardedInstall (board : Board) (part : Part) : Except Misuse Board := do
  let bodies ← part.bodies.mapM Body.make
  part.wires.foldlM
    (fun wired wire =>
      wired.connect wire.1.code (wire.2.map fun point => wired.port? (point.shift board.size)))
    (board.addAll bodies)

/-- Wires between ports of a board are laid as they are asked for. -/
theorem foldlM_connect
    {board wired : Board}
    (same : wired.entities = board.entities)
    {base : Nat}
    {wires : List (Color × List Endpoint)}
    (several : ∀ wire ∈ wires, 2 ≤ wire.2.length)
    (ports : ∀ wire ∈ wires, ∀ point ∈ wire.2, board.HasPort (point.shift base)) :
    wires.foldlM
        (fun wired wire =>
          wired.connect wire.1.code (wire.2.map fun point => wired.port? (point.shift base)))
        wired =
      .ok (wires.foldl (fun wired wire => wired.wire wire.1 (wire.2.map (·.shift base))) wired) := by
  induction wires generalizing wired with
  | nil =>
      rfl
  | cons wire rest inductionHypothesis =>
      obtain ⟨severalFirst, severalRest⟩ := List.forall_mem_cons.mp several
      obtain ⟨portsFirst, portsRest⟩ := List.forall_mem_cons.mp ports
      have present : (wire.2.map fun point => wired.port? (point.shift base)) =
          (wire.2.map (·.shift base)).map some := by
        rw [List.map_map]
        refine List.map_congr_left fun point listed => ?_
        exact port?_eq ((portsFirst point listed).keeps (keeps_of_entities_eq same))
      have connected := wired.connect_code wire.1 (by simpa using severalFirst :
        2 ≤ (wire.2.map (·.shift base)).length)
      rw [List.foldlM_cons, List.foldl_cons, present, connected]
      exact inductionHypothesis (by rw [entities_wire, same]) severalRest portsRest

theorem guardedInstall_eq
    {board : Board}
    {part : Part}
    (made : ∀ body ∈ part.bodies, body.make = .ok body)
    (several : ∀ wire ∈ part.wires, 2 ≤ wire.2.length)
    (ports :
      ∀ wire ∈ part.wires, ∀ point ∈ wire.2,
        (board.addAll part.bodies).HasPort (point.shift board.size)) :
    board.guardedInstall part = .ok (board.install part) := by
  have bodies : part.bodies.mapM Body.make = .ok part.bodies := by
    rw [mapM_congr made]
    exact List.mapM_pure.trans (by rw [List.map_id'] ; rfl)
  rw [guardedInstall, bodies]
  exact foldlM_connect rfl several ports

end Board

theorem Role.Wire.two_le_length
    {geometry : Geometry}
    {color : Color}
    {ends : List (Role × Port)}
    (wire : Wire geometry color ends) :
    2 ≤ ends.length := by
  cases wire <;> simp

namespace Bank

theorem make_of_mem_bodies
    {geometry : Geometry}
    {body : Body}
    (member : body ∈ (part geometry).bodies) :
    body.make = .ok body := by
  simp only [part, rowBodies, portBodies, List.mem_cons, List.mem_append, List.mem_flatMap,
    List.mem_map, List.not_mem_nil, or_false] at member
  rcases member with (rfl | ⟨row, -, rfl | rfl | rfl⟩) | ⟨port, -, rfl | ⟨row, -, rfl⟩⟩
  case inr.inl => exact make_transformer
  all_goals exact make_selector _ _ _ rfl rfl

/-- The entities of an installed memory have two ports. -/
theorem hasPort_install
    (board : Board)
    {geometry : Geometry}
    {place : Nat}
    (inRange : place < entityCount geometry)
    (port : Port) :
    (board.install (part geometry)).HasPort ⟨board.size + place, port⟩ := by
  rw [← Blueprint.length_bodies_part] at inRange
  have stands := board.body_install _ place (List.getElem?_eq_getElem inRange)
  refine ⟨?_, ?_⟩
  · simpa [Board.size, Board.entities_install] using inRange
  · rw [Body.ports, stands, outputPort_of_mem_bodies (List.getElem_mem inRange)]
    cases port <;> simp

/-- The output that carries the data of a read port belongs to the memory. -/
theorem portOutput_mem_entities
    {bank : Bank}
    {port : Nat}
    (inRange : port < bank.geometry.readPorts) :
    (bank.portOutput port).entity ∈ (NodeKind.memory bank).entities := by
  have inMemory : addressAt bank.geometry port + bank.geometry.size < entityCount bank.geometry :=
    Role.portPlace_lt inRange (by omega)
  exact List.mem_map.mpr ⟨_, List.mem_range.mpr inMemory, (Nat.add_assoc ..).symm⟩

theorem hasPort_portOutput
    (board : Board)
    {bank : Bank}
    (first : bank.first = board.size)
    {port : Nat}
    (inRange : port < bank.geometry.readPorts) :
    (board.install (part bank.geometry)).HasPort (bank.portOutput port) := by
  obtain ⟨place, listed, isEntity⟩ := List.mem_map.mp (portOutput_mem_entities inRange)
  have hasPort := hasPort_install board (List.mem_range.mp listed) .two
  rw [← first, isEntity] at hasPort
  exact hasPort

/-- The data of a read port is put out by the decider that reads the last row. -/
theorem body_portOutput
    (board : Board)
    {bank : Bank}
    (first : bank.first = board.size)
    (rows : 1 ≤ bank.geometry.size)
    {port : Nat}
    (inRange : port < bank.geometry.readPorts) :
    ∃ row, row + 1 = bank.geometry.size ∧
      (bank.portOutput port).entity = bank.first + readAt bank.geometry port row ∧
      ((board.install (part bank.geometry)).entity (bank.portOutput port).entity).body =
        selector .equal .control (rowAddress bank.geometry row) true .value := by
  obtain ⟨row, isLast⟩ : ∃ row, row + 1 = bank.geometry.size := ⟨_, Nat.sub_add_cancel rows⟩
  have place : (bank.portOutput port).entity = bank.first + readAt bank.geometry port row := by
    simp only [portOutput, readAt]
    omega
  refine ⟨row, isLast, place, ?_⟩
  have stands : (part bank.geometry).bodies[readAt bank.geometry port row]? =
      some (selector .equal .control (rowAddress bank.geometry row) true .value) := by
    rw [Role.readAt_eq, Role.getElem?_part_port inRange (by omega), portBodies,
      List.getElem?_cons_succ]
    simp [← isLast]
  rw [place, first]
  exact board.body_install _ _ stands

theorem guardedInstall_part
    (board : Board)
    {geometry : Geometry}
    (rows : 1 ≤ geometry.size) :
    board.guardedInstall (part geometry) = .ok (board.install (part geometry)) := by
  have same := Board.entities_lay (board.addAll (part geometry).bodies)
    ((part geometry).wires.map fun wire => (wire.1, wire.2.map (·.shift board.size)))
  rw [← Board.install_eq_lay] at same
  refine Board.guardedInstall_eq (fun _ => make_of_mem_bodies) ?_ ?_
  · intro wire inside
    obtain ⟨ends, laid, shape, -⟩ := mem_part_wires inside
    rw [shape]
    simpa [Role.wireOf] using laid.two_le_length
  · intro wire inside point listed
    obtain ⟨ends, laid, shape, inner⟩ := mem_part_wires inside
    rw [shape] at listed
    obtain ⟨end_, isEnd, rfl⟩ := List.mem_map.mp listed
    have inRange := Role.place_lt_entityCount (laid.in_ends rows _ isEnd) (inner _ isEnd)
    exact (hasPort_install board inRange end_.2).keeps (Board.keeps_of_entities_eq same.symm)

end Bank

namespace Design

open Relation

variable {design later : Design}

/-! ## Guarded memories -/

/-- Add a read port of a memory. Its data must be there, and so must the decider that the loop over
the rows ends with and the output of that decider. -/
def Guarded.addPort (bank : Bank) (memory : Nat) (board : Board) (port : Nat) : Synthesis Nat :=
  let width := bank.geometry.width
  match Bit.slice? bank.readData (port * width) ((port + 1) * width) with
  | none => throw (.ofCrash .impossibleLength)
  | some bits =>
      match (Bank.readChain bank.geometry port).last with
      | none => throw (.ofCrash .nullEntity)
      | some last =>
          match board.port? (board.output (bank.first + last)) with
          | none => throw (.ofCrash .nullEndpoint)
          | some point => addNode (.readPort memory port bits point)

/-- Add a memory and then its read ports. -/
def Guarded.addMemory (cell : Cell) : Synthesis (Nat × List Nat) := do
  let board := (← get).board
  match Bank.ofCell cell board.size with
  | .error failure => throw failure
  | .ok bank =>
      match board.guardedInstall (Bank.part bank.geometry) with
      | .error misuse => throw (.ofMisuse misuse)
      | .ok installed =>
          modify fun design => { design with board := installed }
          let memory ← addNode (.memory bank)
          let ports ← (List.range bank.geometry.readPorts).mapM
            (Guarded.addPort bank memory installed)
          return (memory, ports)

theorem guarded_addMemory
    (cell : Cell)
    (design : Design) :
    Guarded.addMemory cell design = addMemory cell design := by
  rw [Guarded.addMemory, addMemory, bind_of_ok (get_run design), bind_of_ok (get_run design)]
  cases accepted : Bank.ofCell cell design.board.size with
  | error failure =>
      rfl
  | ok bank =>
      have describes := Bank.describes_of_ofCell accepted
      have first := Blueprint.first_eq accepted
      have rows := (Bank.buildable_of_ofCell accepted).size
      have ports (memory : Nat) : (List.range bank.geometry.readPorts).mapM
            (Guarded.addPort bank memory (design.board.install (Bank.part bank.geometry))) =
          (List.range bank.geometry.readPorts).mapM (addPort bank memory) := by
        refine mapM_congr fun port listed => ?_
        have inRange := List.mem_range.mp listed
        have hasPort := Bank.hasPort_portOutput design.board first inRange
        obtain ⟨last, isLast, isOutput⟩ :=
          Option.map_eq_some_iff.mp (Bank.portOutput?_eq rows port)
        rw [← isOutput] at hasPort
        rw [Guarded.addPort, describes.slice?_readData inRange, isLast]
        simp only [Board.output_eq_of_hasPort_two hasPort, Board.port?_eq hasPort,
          addPort_eq rows, ← isOutput]
      simp only [Bank.guardedInstall_part design.board rows, ports]
      rfl

/-- A memory that was added to a design for a cell, with its read ports. -/
structure HoldsMemory
    (cell : Cell)
    (bank : Bank)
    (design : Design)
    (memory : Nat)
    (ports : List Nat)
    (later : Design) :
    Prop where
  describes : bank.Describes cell
  isMemory : (later.node memory).kind = .memory bank
  length_entities :
    (later.node memory).kind.entities.length =
      1 + 3 * bank.geometry.size + bank.geometry.readPorts * (1 + bank.geometry.size)
  nodup_entities : (later.node memory).kind.entities.Nodup
  mem_entities :
    ∀ entity, entity ∈ (later.node memory).kind.entities ↔
      design.board.size ≤ entity ∧ entity < later.board.size
  mem_nodes :
    ∀ id, id ∈ memory :: ports ↔ design.nodes.size ≤ id ∧ id < later.nodes.size
  length_ports : ports.length = bank.geometry.readPorts
  isPort :
    ∀ {index port}, ports[index]? = some port →
      ∃ bits point,
        (later.node port).kind = .readPort memory index bits point ∧
          bits.length = bank.geometry.width ∧
          point.entity ∈ (later.node memory).kind.entities ∧
          later.board.HasPort point ∧ later.board.output point.entity = point ∧
          ∃ row, row + 1 = bank.geometry.size ∧
            point.entity = bank.first + Bank.readAt bank.geometry index row ∧
            (later.board.entity point.entity).body =
              selector .equal .control (Bank.rowAddress bank.geometry row) true .value
  data : cell.bits? "RD_DATA" = some (ports.flatMap fun port => (later.node port).kind.bits)

theorem holdsMemory_of_ofCell
    {cell : Cell}
    {bank : Bank}
    (accepted : Bank.ofCell cell design.board.size = .ok bank) :
    HoldsMemory cell bank design design.nodes.size
      ((List.range bank.geometry.readPorts).map (design.nodes.size + 1 + ·))
      (design.withMemory bank) := by
  have describes := Bank.describes_of_ofCell accepted
  have first := Blueprint.first_eq accepted
  have isMemory : ((design.withMemory bank).node design.nodes.size).kind = .memory bank := by
    rw [node_withMemory, if_pos rfl]
  have portNode {index : Nat} (inRange : index < bank.geometry.readPorts) :
      ((design.withMemory bank).node (design.nodes.size + 1 + index)).kind =
        .readPort design.nodes.size index (bank.portBits index) (bank.portOutput index) := by
    rw [node_withMemory, if_neg (by omega), if_pos (by omega), Nat.add_sub_cancel_left]
  refine
    { describes := describes
      isMemory := isMemory
      length_entities := by simp [isMemory, NodeKind.entities, Bank.entityCount]
      nodup_entities := ?_
      mem_entities := ?_
      mem_nodes := ?_
      length_ports := by simp
      isPort := ?_
      data := ?_ }
  · rw [isMemory, NodeKind.entities]
    exact List.nodup_range.map fun _ _ same => Nat.add_left_cancel same
  · intro entity
    have size : (design.withMemory bank).board.size =
        design.board.size + Bank.entityCount bank.geometry := by
      simp [withMemory, push, Board.size, Board.entities_install, Blueprint.length_bodies_part]
    rw [isMemory, NodeKind.entities, first, size]
    simp only [List.mem_map, List.mem_range]
    constructor
    · rintro ⟨place, inRange, rfl⟩
      omega
    · rintro ⟨afterBefore, inRange⟩
      exact ⟨entity - design.board.size, by omega, by omega⟩
  · intro id
    rw [size_withMemory]
    simp only [List.mem_cons, List.mem_map, List.mem_range]
    constructor
    · rintro (rfl | ⟨index, inRange, rfl⟩) <;> omega
    · rintro ⟨afterBefore, inRange⟩
      rcases Nat.eq_or_lt_of_le afterBefore with same | isPort
      · exact .inl same.symm
      · exact .inr ⟨id - (design.nodes.size + 1), by omega, by omega⟩
  · intro index port listed
    rw [List.getElem?_map] at listed
    obtain ⟨_, found, rfl⟩ := Option.map_eq_some_iff.mp listed
    obtain ⟨inRange, rfl⟩ := List.getElem?_eq_some_iff.mp found
    rw [List.length_range] at inRange
    rw [List.getElem_range, isMemory]
    have hasPort := Bank.hasPort_portOutput design.board first inRange
    have rows := (Bank.buildable_of_ofCell accepted).size
    refine ⟨_, _, portNode inRange, describes.length_portBits inRange,
      Bank.portOutput_mem_entities inRange, hasPort, Board.output_eq_of_hasPort_two hasPort, ?_⟩
    exact Bank.body_portOutput design.board first rows inRange
  · rw [describes.readData, ← describes.flatMap_portBits, List.flatMap_map]
    refine congrArg some (List.flatMap_congr fun index listed => ?_)
    rw [portNode (List.mem_range.mp listed), NodeKind.bits]

/-- Making a memory for a cell misses nothing: no combinator is malformed, no wire ends nowhere, and
no port is left without a last row or asks for data beyond the data connection. A cell is refused
ordinarily, and then nothing is changed, or there is a memory with its read ports. Whatever is done
to the design after that, and whatever table is used, connecting the memory or one of its ports
misses nothing either. -/
theorem memory_is_safe
    (cell : Cell)
    (design : Design) :
    Guarded.addMemory cell design = addMemory cell design ∧
      Ensures (addMemory cell design)
        (fun made later =>
          ∃ bank,
            HoldsMemory cell bank design made.1 made.2 later ∧
              (design.Built →
                ∀ now, ReflTransGen Builds later now →
                  ∀ table, now.Names table →
                    ∀ id ∈ made.1 :: made.2,
                      let tabled := { now with table := table }
                      Guarded.connect resolve id tabled = connect resolve id tabled ∧
                        Ensures (connect resolve id tabled)
                          (fun point _ => point = (later.node id).kind.outlet)
                          (fun failure _ => failure.cause.isOrdinary)))
        (fun failure later => failure.cause.isOrdinary ∧ later = design) := by
  refine ⟨guarded_addMemory cell design, ?_⟩
  cases accepted : Bank.ofCell cell design.board.size with
  | error failure =>
      rw [addMemory_run_of_error accepted]
      exact ⟨Bank.ordinarily_ofCell cell _ failure accepted, rfl⟩
  | ok bank =>
      have holds := holdsMemory_of_ofCell accepted
      have added : after (Addition.memory cell).run design = design.withMemory bank := by
        rw [after_run, Addition.make, after_map, after, addMemory_run accepted]
      rw [addMemory_run accepted]
      refine ⟨bank, holds, fun built now builds table names id asked => ?_⟩
      have builtLater : (design.withMemory bank).Built :=
        added ▸ ReflTransGen.tail built (.add (.memory cell))
      obtain ⟨-, kept⟩ := standing_of_builds builtLater.standing builds
      have inRange := ((holds.mem_nodes id).mp asked).2
      -- Whatever table is used, the design is one that was built from nothing.
      have builtTabled : ({ now with table := table } : Design).Built :=
        (builtLater.trans builds).tail (.use names)
      obtain ⟨same, ensured⟩ := builtTabled.connect_safe (Nat.lt_of_lt_of_le inRange kept.size_le)
      refine ⟨same, ensured.mono (fun point _ isOutlet => ?_) fun _ _ ordinary => ordinary⟩
      rw [isOutlet, ← kept.kind_eq inRange]
      rfl

/-- A memory of four rows with two read ports has 23 entities. It can be connected safely, also where
one of its read ports produces the data that is written. -/
theorem memory_is_safe_four_rows :
    ∃ cell data later,
      cell.bits? "WR_DATA" = some data ∧
        addMemory cell {} = .ok (0, [1, 2]) later ∧
        (later.node 0).kind.entities.length = 23 ∧
        let tabled := { later with table := ({} : Table).add data (some 1) }
        Guarded.connect resolve 0 tabled = connect resolve 0 tabled := by
  let spec : MemorySpec := ⟨3, 8, 4, 2, 2, 1⟩
  have accepted : Ensures (spec.cell.run {})
      (fun cell _ =>
        (Bank.ofCell cell 0).toOption.map (·.geometry) = some ⟨3, 8, 4, 2, 2, 1⟩)
      (fun _ _ => False) := by
    decide +kernel
  cases made : spec.cell.run {} with
  | error failure nets =>
      rw [made, Ensures] at accepted
      exact accepted.elim
  | ok cell nets =>
      rw [made, Ensures] at accepted
      cases bankEq : Bank.ofCell cell 0 with
      | error failure =>
          rw [bankEq] at accepted
          cases accepted
      | ok bank =>
          rw [bankEq] at accepted
          have geometry : bank.geometry = ⟨3, 8, 4, 2, 2, 1⟩ := Option.some.inj accepted
          have ran : addMemory cell {} = .ok (0, [1, 2]) (withMemory {} bank) := by
            rw [addMemory_run bankEq, geometry]
            rfl
          obtain ⟨-, ensured⟩ := memory_is_safe cell {}
          rw [ran] at ensured
          obtain ⟨other, holds, safe⟩ := ensured
          have same : other.geometry = ⟨3, 8, 4, 2, 2, 1⟩ := by
            have parsed := (Bank.describes_of_ofCell bankEq).geometry
            rw [holds.describes.geometry, geometry] at parsed
            exact Except.ok.inj parsed
          have inRange : 1 < (withMemory {} bank).nodes.size :=
            ((holds.mem_nodes 1).mp (by simp)).2
          have names := (names_empty (withMemory {} bank)).add other.writeData inRange
          refine ⟨cell, other.writeData, withMemory {} bank, holds.describes.writeData, ran, ?_, ?_⟩
          · have count := holds.length_entities
            rw [same] at count
            exact count
          · exact (safe .refl _ .refl _ names 0 (by simp)).1

end Design

end CircuitNetwork
