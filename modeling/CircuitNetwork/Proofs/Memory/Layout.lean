import CircuitNetwork.Proofs.Generator.Wiring

namespace CircuitNetwork

/-!
# The layout of a memory

Every entity of a memory with its inputs and outputs has a role, and every role
a place.
-/

/-- What an entity is for. Inputs are counted in the order clock, write address, write data, write
enable, and then the addresses of the read ports. -/
inductive Role where
  | pulse
  | select (row : Nat)
  | latch (row : Nat)
  | hold (row : Nat)
  | decode (port : Nat)
  | reader (port row : Nat)
  | input (index : Nat)
  | terminal (port : Nat)
  deriving Repr, DecidableEq, Inhabited

namespace Role

variable {geometry : Geometry}

/-- A role in a memory of a given geometry. -/
def In (geometry : Geometry) : Role → Prop
  | pulse => True
  | select row | latch row | hold row => row < geometry.size
  | decode port | terminal port => port < geometry.readPorts
  | reader port row => port < geometry.readPorts ∧ row < geometry.size
  | input index => index < 4 + geometry.readPorts

/-- Where the entity of a role stands. -/
def place (geometry : Geometry) : Role → Nat
  | pulse => 0
  | select row => Bank.selectAt row
  | latch row => Bank.latchAt row
  | hold row => Bank.holdAt row
  | decode port => Bank.addressAt geometry port
  | reader port row => Bank.readAt geometry port row
  | input index => Bank.entityCount geometry + index
  | terminal port => Bank.entityCount geometry + (4 + geometry.readPorts) + port

/-- The role of an entity of a row. -/
def ofRow (row offset : Nat) : Role :=
  match offset with
  | 0 => select row
  | 1 => latch row
  | _ => hold row

/-- The role of an entity of a read port. -/
def ofPort (port offset : Nat) : Role :=
  match offset with
  | 0 => decode port
  | row + 1 => reader port row

/-- The role of the entity that stands at a place. -/
def ofPlace (geometry : Geometry) (place : Nat) : Role :=
  let afterRows := place - (1 + 3 * geometry.size)
  if place = 0 then pulse
  else if place < 1 + 3 * geometry.size then ofRow ((place - 1) / 3) ((place - 1) % 3)
  else if place < Bank.entityCount geometry then
    ofPort (afterRows / (1 + geometry.size)) (afterRows % (1 + geometry.size))
  else if place < Bank.entityCount geometry + (4 + geometry.readPorts) then
    input (place - Bank.entityCount geometry)
  else terminal (place - (Bank.entityCount geometry + (4 + geometry.readPorts)))

/-- The number of entities of a memory with its inputs and outputs. -/
def total (geometry : Geometry) : Nat :=
  Bank.entityCount geometry + (4 + geometry.readPorts) + geometry.readPorts

theorem selectAt_eq (row : Nat) : Bank.selectAt row = 1 + (row * 3 + 0) := by
  simp only [Bank.selectAt]
  omega

theorem latchAt_eq (row : Nat) : Bank.latchAt row = 1 + (row * 3 + 1) := by
  simp only [Bank.latchAt]
  omega

theorem holdAt_eq (row : Nat) : Bank.holdAt row = 1 + (row * 3 + 2) := by
  simp only [Bank.holdAt]
  omega

theorem readAt_eq
    (geometry : Geometry)
    (port row : Nat) :
    Bank.readAt geometry port row = Bank.addressAt geometry port + (row + 1) := by
  simp only [Bank.readAt]
  omega

theorem div_mod_block
    {width : Nat}
    (block : Nat)
    {offset : Nat}
    (inRange : offset < width) :
    (block * width + offset) / width = block ∧ (block * width + offset) % width = offset := by
  rw [Nat.mul_comm, Nat.mul_add_div (by omega), Nat.div_eq_of_lt inRange, Nat.mul_add_mod,
    Nat.mod_eq_of_lt inRange]
  exact ⟨rfl, rfl⟩

/-- The place of a role among the entities of the memory itself. -/
theorem portPlace_lt
    {port offset : Nat}
    (inPorts : port < geometry.readPorts)
    (inRange : offset < 1 + geometry.size) :
    Bank.addressAt geometry port + offset < Bank.entityCount geometry := by
  have inside := Bank.slice_le inPorts (1 + geometry.size)
  simp only [Bank.addressAt, Bank.entityCount]
  omega

theorem ofPlace_addressAt
    {port offset : Nat}
    (inPorts : port < geometry.readPorts)
    (inRange : offset < 1 + geometry.size) :
    ofPlace geometry (Bank.addressAt geometry port + offset) = ofPort port offset := by
  have inMemory := portPlace_lt inPorts inRange
  have afterRows : 1 + 3 * geometry.size ≤ Bank.addressAt geometry port + offset := by
    simp only [Bank.addressAt]
    omega
  have relative : Bank.addressAt geometry port + offset - (1 + 3 * geometry.size) =
      port * (1 + geometry.size) + offset := by
    simp only [Bank.addressAt]
    omega
  obtain ⟨quotient, remainder⟩ := div_mod_block port inRange
  rw [ofPlace, if_neg (by omega), if_neg (by omega), if_pos inMemory]
  simp only [relative, quotient, remainder]

theorem ofPlace_row
    {row offset : Nat}
    (inRange : row < geometry.size)
    (inBlock : offset < 3) :
    ofPlace geometry (1 + (row * 3 + offset)) = ofRow row offset := by
  obtain ⟨quotient, remainder⟩ := div_mod_block row inBlock
  rw [ofPlace, if_neg (by omega), if_pos (by omega), Nat.add_sub_cancel_left, quotient, remainder]

/-- The place of a role tells the role. -/
theorem ofPlace_place
    {role : Role}
    (present : role.In geometry) :
    ofPlace geometry (role.place geometry) = role := by
  cases role with
  | pulse =>
      rfl
  | select row =>
      rw [Role.place, selectAt_eq, ofPlace_row present (by omega)]
      rfl
  | latch row =>
      rw [Role.place, latchAt_eq, ofPlace_row present (by omega)]
      rfl
  | hold row =>
      rw [Role.place, holdAt_eq, ofPlace_row present (by omega)]
      rfl
  | decode port =>
      rw [Role.place, ← Nat.add_zero (Bank.addressAt geometry port),
        ofPlace_addressAt present (by omega), ofPort]
  | reader port row =>
      have inBlock : row + 1 < 1 + geometry.size := by
        have := present.2
        omega
      rw [Role.place, readAt_eq, ofPlace_addressAt present.1 inBlock, ofPort]
  | input index =>
      have inRange : index < 4 + geometry.readPorts := present
      have positive : 0 < Bank.entityCount geometry := by simp only [Bank.entityCount]; omega
      have afterRows : 1 + 3 * geometry.size ≤ Bank.entityCount geometry := by
        simp only [Bank.entityCount]
        omega
      rw [Role.place, ofPlace, if_neg (by omega), if_neg (by omega), if_neg (by omega),
        if_pos (by omega), Nat.add_sub_cancel_left]
  | terminal port =>
      have positive : 0 < Bank.entityCount geometry := by simp only [Bank.entityCount]; omega
      have afterRows : 1 + 3 * geometry.size ≤ Bank.entityCount geometry := by
        simp only [Bank.entityCount]
        omega
      rw [Role.place, ofPlace, if_neg (by omega), if_neg (by omega), if_neg (by omega),
        if_neg (by omega), Nat.add_sub_cancel_left]

/-- Every place has a role. -/
theorem exists_place
    {place : Nat}
    (inRange : place < total geometry) :
    ∃ role : Role, role.In geometry ∧ role.place geometry = place := by
  rcases Nat.eq_zero_or_pos place with rfl | positive
  · exact ⟨pulse, trivial, rfl⟩
  rcases Nat.lt_or_ge place (1 + 3 * geometry.size) with inRows | afterRows
  · obtain ⟨row, offset, inBlock, rfl⟩ :
        ∃ row offset, offset < 3 ∧ place = 1 + (row * 3 + offset) :=
      ⟨(place - 1) / 3, (place - 1) % 3, by omega, by omega⟩
    have rowInRange : row < geometry.size := by omega
    match offset, inBlock with
    | 0, _ => exact ⟨select row, rowInRange, by simp only [Role.place, Bank.selectAt]; omega⟩
    | 1, _ => exact ⟨latch row, rowInRange, by simp only [Role.place, Bank.latchAt]; omega⟩
    | 2, _ => exact ⟨hold row, rowInRange, by simp only [Role.place, Bank.holdAt]; omega⟩
  rcases Nat.lt_or_ge place (Bank.entityCount geometry) with inMemory | afterMemory
  · obtain ⟨relative, rfl⟩ := Nat.exists_eq_add_of_le afterRows
    have inPorts : relative < geometry.readPorts * (1 + geometry.size) := by
      simp only [Bank.entityCount] at inMemory
      omega
    have portInRange : relative / (1 + geometry.size) < geometry.readPorts :=
      Nat.div_lt_of_lt_mul (Nat.mul_comm _ _ ▸ inPorts)
    have inBlock : relative % (1 + geometry.size) < 1 + geometry.size :=
      Nat.mod_lt _ (by omega)
    have split := Nat.div_add_mod' relative (1 + geometry.size)
    rcases Nat.eq_zero_or_pos (relative % (1 + geometry.size)) with none | some
    · refine ⟨decode _, portInRange, ?_⟩
      simp only [Role.place, Bank.addressAt]
      omega
    · refine ⟨reader _ (relative % (1 + geometry.size) - 1), ⟨portInRange, by omega⟩, ?_⟩
      simp only [Role.place, Bank.readAt, Bank.addressAt]
      omega
  rcases Nat.lt_or_ge place (Bank.entityCount geometry + (4 + geometry.readPorts)) with
    isInput | isOutput
  · exact ⟨input (place - Bank.entityCount geometry), by simp only [In]; omega,
      by simp only [Role.place]; omega⟩
  · refine ⟨terminal (place - (Bank.entityCount geometry + (4 + geometry.readPorts))), ?_, ?_⟩
    · simp only [In, total] at inRange ⊢
      omega
    · simp only [Role.place]
      omega

/-- What the entity of a role does. -/
def body (geometry : Geometry) : Role → Body
  | pulse => Bank.pulse
  | select row => selector .equal .value (Bank.rowAddress geometry row) true .control
  | latch _ => selector .equal .control 1 true .value
  | hold _ => selector .equal .control 0 true .value
  | decode _ => transformer
  | reader _ row => selector .equal .control (Bank.rowAddress geometry row) true .value
  | input _ => .ofCount 0
  | terminal _ => .ofFilters []

/-- Blocks of equal length are found by the number of the block and the offset in it. -/
theorem getElem?_flatMap_range
    {α : Type}
    {blocks : Nat → List α}
    {width : Nat}
    (sized : ∀ block, (blocks block).length = width)
    {count block offset : Nat}
    (inRange : block < count)
    (inBlock : offset < width) :
    ((List.range count).flatMap blocks)[block * width + offset]? = (blocks block)[offset]? := by
  induction count with
  | zero =>
      omega
  | succ count inductionHypothesis =>
      have length : ((List.range count).flatMap blocks).length = count * width := by
        simp [sized]
      rw [List.range_succ, List.flatMap_append, List.flatMap_singleton]
      rcases Nat.lt_or_ge block count with before | last
      · have inside := Bank.slice_le before width
        rw [List.getElem?_append_left (by omega), inductionHypothesis before]
      · obtain rfl : block = count := by omega
        rw [List.getElem?_append_right (by omega), length, Nat.add_sub_cancel_left]

theorem length_rows
    (geometry : Geometry) :
    ((List.range geometry.size).flatMap (Bank.rowBodies geometry)).length = 3 * geometry.size := by
  simp [Bank.rowBodies]
  omega

theorem getElem?_part_row
    {row offset : Nat}
    (inRange : row < geometry.size)
    (inBlock : offset < 3) :
    (Bank.part geometry).bodies[1 + (row * 3 + offset)]? =
      (Bank.rowBodies geometry row)[offset]? := by
  have sized : ∀ row, (Bank.rowBodies geometry row).length = 3 := fun _ => rfl
  rw [Bank.part]
  simp only [List.cons_append]
  rw [Nat.add_comm 1, List.getElem?_cons_succ, List.getElem?_append_left,
    getElem?_flatMap_range sized inRange inBlock]
  rw [length_rows]
  omega

theorem getElem?_part_port
    {port offset : Nat}
    (inRange : port < geometry.readPorts)
    (inBlock : offset < 1 + geometry.size) :
    (Bank.part geometry).bodies[Bank.addressAt geometry port + offset]? =
      (Bank.portBodies geometry)[offset]? := by
  have place : Bank.addressAt geometry port + offset =
      (3 * geometry.size + (port * (1 + geometry.size) + offset)) + 1 := by
    simp only [Bank.addressAt]
    omega
  rw [Bank.part, place]
  simp only [List.cons_append]
  rw [List.getElem?_cons_succ, List.getElem?_append_right (by rw [length_rows]; omega), length_rows,
    Nat.add_sub_cancel_left]
  exact getElem?_flatMap_range (fun _ => by simp [Bank.portBodies]; omega) inRange inBlock

/-- The entity of a role stands at its place. -/
theorem getElem?_allBodies
    (bank : Bank)
    {role : Role}
    (present : role.In bank.geometry) :
    (Blueprint.allBodies bank)[role.place bank.geometry]? = some (role.body bank.geometry) := by
  have length := Blueprint.length_bodies_part bank.geometry
  have inPart {index : Nat} {body : Body}
      (found : (Bank.part bank.geometry).bodies[index]? = some body) :
      (Blueprint.allBodies bank)[index]? = some body := by
    have inRange := (List.getElem?_eq_some_iff.mp found).1
    rw [Blueprint.allBodies, List.append_assoc, List.getElem?_append_left inRange, found]
  cases role with
  | pulse =>
      exact inPart rfl
  | select row =>
      apply inPart
      rw [Role.place, selectAt_eq, getElem?_part_row present (by omega)]
      rfl
  | latch row =>
      apply inPart
      rw [Role.place, latchAt_eq, getElem?_part_row present (by omega)]
      rfl
  | hold row =>
      apply inPart
      rw [Role.place, holdAt_eq, getElem?_part_row present (by omega)]
      rfl
  | decode port =>
      apply inPart
      rw [Role.place, ← Nat.add_zero (Bank.addressAt bank.geometry port),
        getElem?_part_port present (by omega)]
      rfl
  | reader port row =>
      have rowInRange := present.2
      apply inPart
      rw [Role.place, readAt_eq, getElem?_part_port present.1 (by omega), Bank.portBodies,
        List.getElem?_cons_succ]
      simp [rowInRange, Role.body]
  | input index =>
      have inRange : index < 4 + bank.geometry.readPorts := present
      rw [Role.place, Blueprint.allBodies, List.append_assoc,
        List.getElem?_append_right (by omega), length, Nat.add_sub_cancel_left,
        List.getElem?_append_left
          (by rw [List.length_replicate, Blueprint.length_inputVectors]; exact inRange),
        List.getElem?_replicate_of_lt (by rw [Blueprint.length_inputVectors]; exact inRange)]
      rfl
  | terminal port =>
      have inRange : port < bank.geometry.readPorts := present
      have before : ((Bank.part bank.geometry).bodies ++
          List.replicate bank.inputVectors.length (Body.ofCount 0)).length =
            Bank.entityCount bank.geometry + (4 + bank.geometry.readPorts) := by
        rw [List.length_append, length, List.length_replicate, Blueprint.length_inputVectors]
      rw [Role.place, Blueprint.allBodies, List.getElem?_append_right (by omega), before,
        Nat.add_sub_cancel_left,
        List.getElem?_replicate_of_lt (by rw [Blueprint.length_outputVectors]; exact inRange)]
      rfl

end Role

end CircuitNetwork
