import CircuitNetwork.Generator.Run
import CircuitNetwork.Proofs.Groups.Extraction
import CircuitNetwork.Proofs.Memory.Refinement
import CircuitNetwork.Proofs.Record

namespace CircuitNetwork

/-!
# Records of memories

The records of an accepted memory are complete and closed: every port is wired,
all partners are ports of records, and no two entities stand on the same tile.
-/

/-- A record covers a square with sides of half a tile. Entities with one port cover one tile,
centered on the position, and those with two ports two tiles, one above the other. -/
def Record.Covers (record : Record) (square : Int × Int) : Prop :=
  let height : Int := if record.body.outputPort = .one then 1 else 2
  (record.position.x - 1 ≤ square.1 ∧ square.1 < record.position.x + 1) ∧
    record.position.y - height ≤ square.2 ∧ square.2 < record.position.y + height

/-- Records that are numbered from one on, list each other's ports, and stand apart. -/
structure Record.Complete (records : List Record) : Prop where
  numbers : records.map (·.number) = List.range' 1 records.length
  ports : ∀ record ∈ records, record.links.map (·.1) = record.body.ports
  wired :
    ∀ record ∈ records, ∀ port links, (port, links) ∈ record.links →
      ∃ color, links.of color ≠ []
  returned :
    ∀ record ∈ records, ∀ port links, (port, links) ∈ record.links →
      ∀ color, ∀ partner ∈ links.of color,
        ∃ other ∈ records, ∃ otherPort otherLinks,
          (otherPort, otherLinks) ∈ other.links ∧
            partner = ⟨other.number, otherPort.number⟩ ∧
            ⟨record.number, port.number⟩ ∈ otherLinks.of color
  apart :
    records.Pairwise fun first second =>
      ∀ square, ¬(first.Covers square ∧ second.Covers square)

namespace Role

variable {geometry : Geometry}

/-- A wire joins ports. -/
theorem Wire.isPort
    {color : Color}
    {ends : List (Role × Port)}
    (wire : Wire geometry color ends) :
    ∀ point ∈ ends, point.2 ∈ (point.1.body geometry).ports := by
  cases wire <;> simp [Body.ports, outputPort_body, outlet]

/-- Every port of every entity is wired to another one. -/
theorem exists_wire
    (rows : 1 ≤ geometry.size)
    {role : Role}
    (present : role.In geometry)
    {port : Port}
    (isPort : port ∈ (role.body geometry).ports) :
    ∃ color ends other,
      Wire geometry color ends ∧ (role, port) ∈ ends ∧ other ∈ ends ∧ other ≠ (role, port) := by
  have first : 0 < geometry.size := rows
  rw [Body.ports, outputPort_body] at isPort
  cases role with
  | pulse =>
      cases port with
      | one => exact ⟨_, _, (input 0, .one), .clock, by simp, by simp, by simp⟩
      | two => exact ⟨_, _, (select 0, .one), .pulse first, by simp, by simp, by simp⟩
  | select row =>
      cases port with
      | one => exact ⟨_, _, (pulse, .two), .pulse present, by simp, by simp, by simp⟩
      | two => exact ⟨_, _, (latch row, .one), .select present, by simp, by simp, by simp⟩
  | latch row =>
      cases port with
      | one => exact ⟨_, _, (select row, .two), .select present, by simp, by simp, by simp⟩
      | two => exact ⟨_, _, (hold row, .two), .value present, by simp, by simp, by simp⟩
  | hold row =>
      cases port with
      | one => exact ⟨_, _, (select row, .two), .select present, by simp, by simp, by simp⟩
      | two => exact ⟨_, _, (latch row, .two), .value present, by simp, by simp, by simp⟩
  | decode reading =>
      cases port with
      | one =>
          exact ⟨_, _, (input (reading + 4), .one), .readAddress present, by simp, by simp, by simp⟩
      | two =>
          exact ⟨_, _, (reader reading 0, .one), .decoded present first, by simp, by simp, by simp⟩
  | reader reading row =>
      cases port with
      | one =>
          exact ⟨_, _, (decode reading, .two), .decoded present.1 present.2, by simp, by simp,
            by simp⟩
      | two =>
          -- The last reader of a port is wired to the terminal, the others to the next one.
          rcases Nat.lt_or_ge (row + 1) geometry.size with hasNext | isLast
          · exact ⟨.red, _, (reader reading (row + 1), .two), .chain .red present.1 hasNext, by simp,
              by simp, by simp⟩
          · obtain rfl : row = geometry.size - 1 := by
              have := present.2
              omega
            exact ⟨_, _, (terminal reading, .one), .result present.1, by simp, by simp, by simp⟩
  | input index =>
      cases port with
      | one =>
          rcases index with _ | _ | _ | _ | reading
          · exact ⟨_, _, (pulse, .one), .clock, by simp, by simp, by simp⟩
          · exact ⟨_, _, (select 0, .one), .address first, by simp, by simp, by simp⟩
          · exact ⟨_, _, (latch 0, .one), .data first, by simp, by simp, by simp⟩
          · exact ⟨_, _, (pulse, .one), .enable, by simp, by simp, by simp⟩
          · have inRange : reading < geometry.readPorts := by
              simp only [In] at present
              omega
            exact ⟨_, _, (decode reading, .one), .readAddress inRange, by simp, by simp, by simp⟩
      | two => simp [outlet] at isPort
  | terminal reading =>
      cases port with
      | one =>
          exact ⟨_, _, (reader reading (geometry.size - 1), .two), .result present, by simp, by simp,
            by simp⟩
      | two => simp [outlet] at isPort

theorem point_injective
    {role other : Role}
    (present : role.In geometry)
    (otherPresent : other.In geometry)
    {port otherPort : Port}
    (same : role.point geometry port = other.point geometry otherPort) :
    (role, port) = (other, otherPort) := by
  obtain ⟨samePlace, samePort⟩ := Endpoint.mk.inj same
  have sameRole : role = other := by
    rw [← ofPlace_place present, samePlace, ofPlace_place otherPresent]
  rw [sameRole, samePort]

end Role

namespace Blueprint

open Role

/-- Networks join ports of the entities of the memory, its inputs and its outputs. -/
theorem Complete.exists_role_of_joined
    {design : Design}
    {bank : Bank}
    (complete : Complete design bank)
    (rows : 1 ≤ bank.geometry.size)
    {color : Color}
    {point other : Endpoint}
    (joined : design.board.Joined color point other) :
    ∃ (role : Role) (port : Port),
      role.In bank.geometry ∧ port ∈ (role.body bank.geometry).ports ∧
        other = role.point bank.geometry port := by
  obtain ⟨wires, spans, owned⟩ := complete.provided.woven.spanned
  obtain ⟨_, ⟨points, member, listed, -⟩, -⟩ :=
    Relation.TransGen.head'_iff.mp (spans.joined_iff.mp joined.symm)
  obtain ⟨ends, wire, same⟩ := complete.wire_of_owns rows (owned _ member)
  simp only [wireOf, Prod.mk.injEq, true_and] at same
  subst same
  obtain ⟨⟨role, port⟩, endListed, rfl⟩ := List.mem_map.mp listed
  exact ⟨role, port, wire.in_ends rows _ endListed, wire.isPort _ endListed, rfl⟩

namespace Holds

variable {blueprint : Blueprint} {bank : Bank}

theorem exists_role
    (holds : blueprint.Holds bank)
    (rows : 1 ≤ bank.geometry.size)
    {id : Nat}
    (member : id ∈ blueprint.arena.members) :
    ∃ role : Role,
      role.In bank.geometry ∧ id = role.place bank.geometry ∧
        (blueprint.design.board.entity id).body = role.body bank.geometry := by
  have realized := holds.realized rows
  obtain ⟨role, present, rfl⟩ := exists_place ((realized.member_iff id).mp member)
  exact ⟨role, present, rfl, realized.body_eq role present⟩

theorem encloses
    (holds : blueprint.Holds bank)
    (rows : 1 ≤ bank.geometry.size) :
    blueprint.design.board.Encloses blueprint.arena.members := by
  intro color point other _ joined
  have realized := holds.realized rows
  obtain ⟨wired, complete, -, -, alike⟩ := holds.wired
  obtain ⟨role, port, present, isPort, rfl⟩ := complete.exists_role_of_joined rows
    ((Board.joined_iff_of_wires_eq alike.wires_eq).mp joined)
  refine ⟨(realized.member_iff _).mpr (place_lt_total present), ?_⟩
  rw [show (role.point bank.geometry port).entity = role.place bank.geometry from rfl,
    realized.body_eq role present]
  exact isPort

/-- Every port of a member shares a network with another endpoint. -/
theorem exists_partner
    (holds : blueprint.Holds bank)
    (rows : 1 ≤ bank.geometry.size)
    {id : Nat}
    (member : id ∈ blueprint.arena.members)
    {port : Port}
    (isPort : port ∈ (blueprint.design.board.entity id).body.ports) :
    ∃ color other, other ≠ ⟨id, port⟩ ∧ blueprint.design.board.Joined color ⟨id, port⟩ other := by
  obtain ⟨role, present, rfl, body⟩ := holds.exists_role rows member
  rw [body] at isPort
  obtain ⟨color, ends, ⟨other, otherPort⟩, wire, listed, otherListed, different⟩ :=
    exists_wire rows present isPort
  have otherPresent := wire.in_ends rows _ otherListed
  obtain ⟨wired, complete, -, -, alike⟩ := holds.wired
  refine ⟨color, other.point bank.geometry otherPort, ?_, ?_⟩
  · exact fun same => different (point_injective otherPresent present same)
  · exact (Board.joined_iff_of_wires_eq alike.wires_eq).mpr
      (complete.joined_of_wire rows wire _ _ listed otherListed)

theorem not_loose
    (holds : blueprint.Holds bank)
    (rows : 1 ≤ bank.geometry.size)
    {id : Nat}
    (member : id ∈ blueprint.arena.members) :
    ¬blueprint.design.board.Loose id := by
  rw [Board.loose_iff]
  rintro ⟨port, isPort, bare⟩
  obtain ⟨color, other, -, network, found, -⟩ := holds.exists_partner rows member isPort
  rw [bare color] at found
  cases found

theorem isCombinator
    (holds : blueprint.Holds bank)
    (rows : 1 ≤ bank.geometry.size)
    {id : Nat}
    (member : id ∈ blueprint.arena.members) :
    (blueprint.design.board.entity id).body.isCombinator = true := by
  obtain ⟨role, -, -, body⟩ := holds.exists_role rows member
  rw [body]
  cases role <;> rfl

end Holds

/-! ## Numbers and positions -/

theorem numbered_addNodes
    (design : Design)
    (nodes : List (Option Nat))
    {state : Board × Arena}
    (numbered : Arena.Numbered state) :
    Ensures (addNodes design nodes state)
      (fun _ later => Arena.Numbered later) (fun _ later => Arena.Numbered later) := by
  refine Ensures.forM Arena.Numbered ?_ numbered
  intro node _ later numberedSoFar
  cases node with
  | none => exact numberedSoFar
  | some id => exact numberedSoFar.add _

/-- The entities of a blueprint are numbered, and then placed. -/
theorem ofSpec_layout
    {spec : MemorySpec}
    {columns : Int}
    {blueprint : Blueprint}
    (built : ofSpec spec columns = .ok blueprint) :
    ∃ board,
      Arena.Numbered (board, blueprint.arena) ∧
        blueprint.design.board = blueprint.arena.layout columns board := by
  unfold ofSpec at built
  split at built
  · cases built
  · split at built
    · cases built
    · rename_i memory outputs design _
      simp only [arrange] at built
      split at built
      · cases built
      · rename_i board arena ran
        have fresh : Arena.Numbered (design.board, {}) := fun _ _ atIndex => by cases atIndex
        have numbered := numbered_addNodes design
          (design.table.nodes ++ some memory :: outputs.map some) fresh
        rw [EStateM.run] at ran
        rw [ran] at numbered
        cases built
        exact ⟨board, numbered, rfl⟩

theorem Holds.lt_size
    {blueprint : Blueprint}
    {bank : Bank}
    (holds : blueprint.Holds bank)
    {id : Nat}
    (member : id ∈ blueprint.arena.members) :
    id < blueprint.design.board.size := by
  obtain ⟨wired, complete, -, -, alike⟩ := holds.wired
  rw [holds.members_eq, mem_entityOrder] at member
  rwa [alike.size_eq, complete.shape.board_size_eq]

/-- The members of a blueprint have the numbers of their places, and stand where these say. -/
theorem Holds.arranged
    {blueprint : Blueprint}
    {bank : Bank}
    (holds : blueprint.Holds bank)
    {spec : MemorySpec}
    {columns : Int}
    (built : ofSpec spec columns = .ok blueprint)
    {index id : Nat}
    (atIndex : blueprint.arena.members[index]? = some id) :
    (blueprint.design.board.entity id).number = index + 1 ∧
      (blueprint.design.board.entity id).position =
        Arena.place (Arena.gridWidth columns) index (blueprint.design.board.entity id).body := by
  obtain ⟨board, numbered, layout⟩ := ofSpec_layout built
  have distinct : blueprint.arena.members.Nodup := by
    rw [holds.members_eq]
    exact nodup_entityOrder bank
  have inRange : id < board.size := by
    have below := holds.lt_size (List.mem_of_getElem? atIndex)
    rwa [layout, (Arena.layout_alike _ _ _).size_eq] at below
  rw [layout, Arena.entity_layout distinct columns atIndex inRange]
  exact ⟨numbered index id atIndex inRange, rfl⟩

end Blueprint

/-- The squares that a placed entity covers tell its index. -/
theorem Record.Covers.index_eq
    {record : Record}
    {width index : Nat}
    (position : record.position = Arena.place width index record.body)
    {square : Int × Int}
    (covers : record.Covers square) :
    (index % width : Nat) = square.1 / 2 ∧ (index / width : Nat) = square.2 / 4 := by
  rw [Record.Covers, position, Arena.place] at covers
  generalize index % width = column at covers ⊢
  generalize index / width = row at covers ⊢
  by_cases onePort : record.body.outputPort = .one
  · simp only [onePort, if_true] at covers
    omega
  · simp only [onePort, if_false] at covers
    omega

namespace Blueprint.Holds

variable {blueprint : Blueprint} {bank : Bank} {spec : MemorySpec} {columns : Int}

/-- The records of a blueprint are complete. -/
theorem complete_records
    (holds : blueprint.Holds bank)
    (rows : 1 ≤ bank.geometry.size)
    (built : ofSpec spec columns = .ok blueprint) :
    blueprint.records =
        .ok ((blueprint.arena.members.map blueprint.design.board.sheet).map some) ∧
      Record.Complete (blueprint.arena.members.map blueprint.design.board.sheet) := by
  have tidy := (holds.realized rows).tidy
  have encloses := holds.encloses rows
  have numbers : blueprint.design.board.Numbers blueprint.arena.members := fun _ _ atIndex =>
    (holds.arranged built atIndex).1
  have described := Board.describes_sheets tidy numbers encloses
  refine ⟨?_, ?_, described.ports, ?_, ?_, ?_⟩
  · rcases blueprint.arena.records_cases (fun id => holds.isCombinator rows) with
      ⟨before, id, after, complaint, split, -, loose, -⟩ | ⟨-, listed⟩
    · exact absurd loose (holds.not_loose rows (by simp [split]))
    · rw [List.map_map]
      exact listed
  · rw [described.numbers, List.length_map]
  · intro record listed port links isLinks
    obtain ⟨id, isMember, rfl⟩ := List.mem_map.mp listed
    obtain ⟨samePort, isPort, shape⟩ := List.mem_map.mp isLinks
    obtain ⟨rfl, rfl⟩ := Prod.mk.inj shape
    obtain ⟨color, other, different, joined⟩ := holds.exists_partner rows isMember isPort
    refine ⟨color, List.ne_nil_of_mem (a := blueprint.design.board.partnerAt other) ?_⟩
    rw [Board.links_of]
    exact List.mem_map_of_mem (tidy.mem_partners_iff.mpr ⟨different, joined⟩)
  · intro record listed port links isLinks color partner isPartner
    obtain ⟨id, isMember, rfl⟩ := List.mem_map.mp listed
    obtain ⟨samePort, isPort, shape⟩ := List.mem_map.mp isLinks
    obtain ⟨rfl, rfl⟩ := Prod.mk.inj shape
    rw [Board.links_of] at isPartner
    obtain ⟨other, isOther, rfl⟩ := List.mem_map.mp isPartner
    obtain ⟨different, joined⟩ := tidy.mem_partners_iff.mp isOther
    have otherEnds := encloses color _ other isMember joined
    refine ⟨_, List.mem_map_of_mem otherEnds.member, other.port, _,
      List.mem_map_of_mem otherEnds.port, rfl, ?_⟩
    rw [Board.links_of]
    exact List.mem_map_of_mem (tidy.mem_partners_iff.mpr ⟨different.symm, joined.symm⟩)
  · rw [List.pairwise_iff_getElem]
    rintro first second inFirst inSecond before square ⟨coversFirst, coversSecond⟩
    simp only [List.getElem_map, List.length_map] at inFirst inSecond coversFirst coversSecond
    have atFirst := holds.arranged built (List.getElem?_eq_getElem inFirst)
    have atSecond := holds.arranged built (List.getElem?_eq_getElem inSecond)
    have firstAt := coversFirst.index_eq atFirst.2
    have secondAt := coversSecond.index_eq atSecond.2
    have sameIndex : first = second := by
      rw [← Nat.div_add_mod first (Arena.gridWidth columns),
        ← Nat.div_add_mod second (Arena.gridWidth columns)]
      congr 1
      · congr 1
        omega
      · omega
    omega

/-- The inputs of a blueprint come first, then the combinators of the memory, and then the outputs. -/
theorem members_split
    (holds : blueprint.Holds bank) :
    ∃ inputs outputs,
      blueprint.arena.members = inputs ++ (NodeKind.memory bank).entities ++ outputs ∧
        inputs.length = 4 + bank.geometry.readPorts ∧
        outputs.length = bank.geometry.readPorts ∧
        (∀ id ∈ inputs, ∃ node bits, (blueprint.design.node node).kind = .input bits id) ∧
        ∀ id ∈ outputs, ∃ node bits, (blueprint.design.node node).kind = .output bits id := by
  obtain ⟨wired, complete, nodes, -, -⟩ := holds.wired
  have node_eq (node : Nat) : blueprint.design.node node = wired.node node := by
    rw [Design.node, nodes, Design.node]
  refine ⟨List.range' (Bank.entityCount bank.geometry) bank.inputVectors.length,
    List.range' (Bank.entityCount bank.geometry + bank.inputVectors.length)
      bank.geometry.readPorts, ?_, ?_, ?_, ?_, ?_⟩
  · rw [holds.members_eq, entityOrder, NodeKind.entities, complete.first_eq]
    simp
  · rw [List.length_range', length_inputVectors]
  · rw [List.length_range']
  · intro id member
    obtain ⟨index, inRange, rfl⟩ := List.mem_range'.mp member
    obtain ⟨-, isInput⟩ := complete.find?_input (List.getElem?_eq_getElem inRange)
    refine ⟨1 + bank.geometry.readPorts + index, bank.inputVectors[index], ?_⟩
    rw [node_eq, Nat.one_mul]
    exact isInput
  · intro id member
    obtain ⟨port, inRange, rfl⟩ := List.mem_range'.mp member
    refine ⟨5 + 2 * bank.geometry.readPorts + port, bank.portBits port, ?_⟩
    rw [node_eq, Nat.one_mul]
    exact complete.shape.kind_eq (getElem?_allKinds_output bank inRange)

end Blueprint.Holds

/-- Items that never fail do not keep what comes after them from being done. -/
theorem Generator.forM_succeeds
    {α β : Type}
    {each : α → Logged Unit}
    {next : Unit → Logged β}
    {result : β}
    (items : List α)
    (messages : List Message)
    (succeeds : ∀ item messages, ∃ logged, each item messages = .ok () logged)
    (onward : ∀ messages, ∃ logged, next () messages = .ok result logged) :
    ∃ logged, (items.forM each >>= next) messages = .ok result logged := by
  induction items generalizing messages with
  | nil =>
      exact onward messages
  | cons item rest inductionHypothesis =>
      obtain ⟨middle, first⟩ := succeeds item messages
      obtain ⟨logged, ran⟩ := inductionHypothesis middle
      refine ⟨logged, ?_⟩
      change ((each item >>= fun _ => rest.forM each) >>= next) messages = .ok result logged
      rw [bind_assoc, bind_of_ok first, ran]

/-- What is produced for a memory that has a blueprint, signal groups and records. -/
theorem Generator.produce_run
    {config : Config}
    {blueprint : Blueprint}
    (built : Blueprint.ofSpec config.memory config.columns.toInt = .ok blueprint)
    {groups : SignalGroups}
    (grouped : blueprint.groups = .ok groups)
    {records : List (Option Record)}
    (recorded : blueprint.records = .ok records) :
    ∃ messages, produce config [] = .ok (Blueprint.render records) messages := by
  have logs (level : Level) (text : String) (before : List Message) :
      log level text before = .ok () (before ++ [⟨level, text⟩]) := rfl
  rw [produce, bind_of_ok (logs _ _ _), built, ofSynthesis, bind_of_ok (pure_run _ _),
    bind_of_ok (logs _ _ _), grouped, ofSynthesis, bind_of_ok (pure_run _ _)]
  refine forM_succeeds groups.entries _ (fun _ _ => ⟨_, rfl⟩) fun messages => ⟨messages, ?_⟩
  rw [recorded]
  rfl

/-- A memory that is accepted is generated, however its configuration is decoded and whatever is kept
of the messages. Its records are those of its inputs, its combinators and its outputs, and they are
complete. -/
theorem Generator.run_emits_complete
    {config : Config}
    {level : Level}
    (known : Level.ofName? config.logLevel = some level)
    (small : config.memory.Small)
    (addressed : 1 ≤ config.memory.addressBits.toInt)
    {cell : Cell}
    {nets : Nets}
    (made : config.memory.cell.run {} = .ok cell nets)
    {bank : Bank}
    (accepted : Bank.ofCell cell 0 = .ok bank) :
    let geometry := config.memory.geometry
    ∃ (blueprint : Blueprint) (groups : SignalGroups) (records : List Record)
        (messages : List Message) (inputs combinators outputs : List Nat),
      Blueprint.ofSpec config.memory config.columns.toInt = .ok blueprint ∧
      blueprint.groups = .ok groups ∧
      blueprint.records = .ok (records.map some) ∧
      (∀ decode keep directory arguments,
        Config.ofArgumentsWith decode directory.lookup arguments = .ok (config, none) →
          Generator.runWith decode keep directory arguments =
            Generator.deliver directory config (keep level messages)
              (Blueprint.render (records.map some))) ∧
      blueprint.arena.members = inputs ++ combinators ++ outputs ∧
      records.map (·.body) =
        blueprint.arena.members.map (fun id => (blueprint.design.board.entity id).body) ∧
      inputs.length = 4 + geometry.readPorts ∧
      (∀ id ∈ inputs, ∃ node bits, (blueprint.design.node node).kind = .input bits id) ∧
      combinators.length = 1 + 3 * geometry.size + geometry.readPorts * (1 + geometry.size) ∧
      (∃ node, (blueprint.design.node node).kind = .memory bank ∧
        combinators = (NodeKind.memory bank).entities) ∧
      outputs.length = geometry.readPorts ∧
      (∀ id ∈ outputs, ∃ node bits, (blueprint.design.node node).kind = .output bits id) ∧
      Record.Complete records := by
  obtain ⟨blueprint, built, holds⟩ :=
    Blueprint.ofSpec_run small addressed made accepted config.columns.toInt
  obtain ⟨bankEq, buildable⟩ := Bank.ofCell_generated small made accepted
  have sameGeometry : bank.geometry = config.memory.geometry := by rw [bankEq]; rfl
  have rows : 1 ≤ bank.geometry.size := sameGeometry ▸ buildable.size
  obtain ⟨groups, extracted, -⟩ :=
    SignalGroups.exists_extract_eq (fun id => holds.isCombinator rows)
  have grouped : blueprint.groups = .ok groups := by rw [Blueprint.groups, extracted]; rfl
  obtain ⟨recorded, complete⟩ := holds.complete_records rows built
  obtain ⟨messages, produced⟩ := produce_run built grouped recorded
  obtain ⟨inputs, outputs, members, inputCount, outputCount, areInputs, areOutputs⟩ :=
    holds.members_split
  rw [sameGeometry] at inputCount outputCount
  refine ⟨blueprint, groups, _, messages, inputs, _, outputs, built, grouped, recorded, ?_, members,
    ?_, inputCount, areInputs, ?_, ⟨0, holds.memory_eq, rfl⟩, outputCount, areOutputs, complete⟩
  · intro decode keep directory arguments parsed
    have configured : configure decode directory.lookup arguments = .ok (config, level) := by
      simp only [configure, parsed, known]
    simp only [runWith, configured, EStateM.run, produced]
  · rw [List.map_map]
    rfl
  · rw [NodeKind.entities, List.length_map, List.length_range, Bank.entityCount, sameGeometry]

/-- A memory of four rows and two read ports, arranged in the usual number of columns because a
senseless one is asked for. -/
theorem Generator.run_emits_complete_four_rows :
    ∃ (blueprint : Blueprint) (records : List Record),
      Blueprint.ofSpec ⟨3, 8, 4, 2, 2, 1⟩ (-1) = .ok blueprint ∧
      blueprint.records = .ok (records.map some) ∧
      records.length = 31 ∧
      Record.Complete records := by
  let config : Config :=
    { memory := ⟨3, 8, 4, 2, 2, 1⟩, logLevel := "debug", columns := -1 }
  have accepted : Ensures (config.memory.cell.run {})
      (fun cell _ => (Bank.ofCell cell 0).toOption.isSome) fun _ _ => False := by
    decide +kernel
  obtain ⟨cell, nets, made, isBank⟩ := accepted.exists_ok
  cases bankEq : Bank.ofCell cell 0 with
  | error failure =>
      rw [bankEq] at isBank
      cases isBank
  | ok bank =>
      obtain ⟨blueprint, _, records, _, inputs, combinators, outputs, built, -, recorded, -,
        members, bodies, inputCount, -, combinatorCount, -, outputCount, -, complete⟩ :=
        @run_emits_complete config .debug (by decide) (by decide) (by decide) cell nets made bank
          bankEq
      refine ⟨blueprint, records, built, recorded, ?_, complete⟩
      have counted := congrArg List.length bodies
      rw [List.length_map, List.length_map, members, List.length_append, List.length_append,
        inputCount, combinatorCount, outputCount] at counted
      exact counted

end CircuitNetwork
