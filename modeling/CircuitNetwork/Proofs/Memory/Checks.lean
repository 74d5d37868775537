import CircuitNetwork.Proofs.Synthesis.Inlets

namespace CircuitNetwork

/-!
# What the checks of a memory cell establish

A cell is refused with an ordinary failure, or its connections are as wide as its
geometry asks for. Then every piece that is cut out of one of them lies within it,
and the pieces of all read ports put together are the whole connection.
-/

/-- A piece of a bit vector. Both of its ends must lie within the vector. -/
def Bit.slice? (bits : List Bit) (start stop : Nat) : Option (List Bit) :=
  if start ≤ stop ∧ stop ≤ bits.length then
    some ((bits.drop start).take (stop - start))
  else
    none

/-- A vector that consists of equal pieces has each of them. -/
theorem Bit.slice?_piece
    {bits : List Bit}
    {pieces width : Nat}
    (whole : bits.length = pieces * width)
    {piece : Nat}
    (inRange : piece < pieces) :
    slice? bits (piece * width) ((piece + 1) * width) =
      some ((bits.drop (piece * width)).take width) := by
  have inside := Bank.slice_le inRange width
  rw [slice?, Nat.succ_mul, if_pos ⟨Nat.le_add_right _ _, by omega⟩, Nat.add_sub_cancel_left]

/-- Equal pieces put together are the beginning of a list. -/
theorem flatMap_pieces
    {α : Type}
    (items : List α)
    (pieces width : Nat) :
    ((List.range pieces).flatMap fun piece => (items.drop (piece * width)).take width) =
      items.take (pieces * width) := by
  induction pieces with
  | zero =>
      simp
  | succ pieces inductionHypothesis =>
      rw [List.range_succ, List.flatMap_append, inductionHypothesis, Nat.succ_mul, List.take_add]
      simp

/-! ## Ordinary failures -/

/-- A computation fails ordinarily if at all. -/
def Ordinarily {α : Type} (result : Except Failure α) : Prop :=
  ∀ failure, result = .error failure → failure.cause.isOrdinary

namespace Ordinarily

variable {α β : Type}

theorem ok
    (value : α) :
    Ordinarily (.ok value) := by
  intro failure failed
  cases failed

theorem error
    {failure : Failure}
    (ordinary : failure.cause.isOrdinary) :
    Ordinarily (.error failure : Except Failure α) := by
  intro other failed
  cases failed
  exact ordinary

theorem bind
    {first : Except Failure α}
    {next : α → Except Failure β}
    (ordinarily : Ordinarily first)
    (nextOrdinarily : ∀ value, Ordinarily (next value)) :
    Ordinarily (first >>= next) := by
  cases first with
  | ok value => exact nextOrdinarily value
  | error failure => exact error (ordinarily failure rfl)

theorem forM
    {each : α → Except Failure PUnit}
    (ordinarily : ∀ item, Ordinarily (each item))
    (items : List α) :
    Ordinarily (items.forM each) := by
  induction items with
  | nil => exact ok ()
  | cons item rest inductionHypothesis =>
      exact bind (ordinarily item) fun _ => inductionHypothesis

/-- A condition that is met, or a failure. -/
theorem require
    {condition : Prop}
    [Decidable condition]
    {value : α}
    {failure : Failure}
    (ordinary : failure.cause.isOrdinary) :
    Ordinarily (if condition then .ok value else .error failure) := by
  split
  · exact ok value
  · exact error ordinary

end Ordinarily

theorem Cell.ordinarily_param
    (cell : Cell)
    (name : String) :
    Ordinarily (cell.param name) := by
  unfold Cell.param
  split
  · exact .ok _
  · exact .error rfl

theorem Cell.ordinarily_bits
    (cell : Cell)
    (name : String) :
    Ordinarily (cell.bits name) := by
  unfold Cell.bits
  split
  · exact .ok _
  · exact .error rfl

theorem Geometry.ordinarily_natParam
    (cell : Cell)
    (name : String) :
    Ordinarily (natParam cell name) := by
  refine .bind (.bind (cell.ordinarily_param name) fun param => ?_) fun value => ?_
  · split
    · exact .ok _
    · exact .error rfl
  · split
    · exact .error rfl
    · exact .ok _

theorem Geometry.ordinarily_ofCell
    (cell : Cell) :
    Ordinarily (ofCell cell) := by
  have number := ordinarily_natParam cell
  unfold ofCell
  split
  · exact .error rfl
  · exact .bind (number _) fun _ => .bind (number _) fun _ => .bind (number _) fun _ =>
      .bind (number _) fun _ => .bind (number _) fun _ => .bind (number _) fun _ => .ok _

namespace Bank

theorem ordinarily_checkLimits
    (geometry : Geometry) :
    Ordinarily (checkLimits geometry) := by
  unfold checkLimits
  split
  · exact .error rfl
  split
  · exact .error rfl
  split
  · exact .error rfl
  split
  · exact .error rfl
  · exact .ok ()

theorem ordinarily_check
    (cell : Cell)
    (geometry : Geometry) :
    Ordinarily (check cell geometry) := by
  have param (rule : ParamRule) : Ordinarily (checkParam cell rule) :=
    .bind (cell.ordinarily_param _) fun _ => .require rfl
  have bits (rule : BitRule) : Ordinarily (checkBits cell rule) :=
    .bind (cell.ordinarily_bits _) fun _ => .require rfl
  have width (expected : String × Nat) : Ordinarily (checkWidth cell expected) :=
    .bind (cell.ordinarily_bits _) fun _ => .require rfl
  exact .bind (ordinarily_checkLimits geometry) fun _ => .bind (.forM param _) fun _ =>
    .bind (.require rfl) fun _ => .bind (.forM param _) fun _ => .bind (.forM bits _) fun _ =>
    .bind (.forM width _) fun _ => .require rfl

/-- A memory cell is refused ordinarily. -/
theorem ordinarily_ofCell
    (cell : Cell)
    (first : Nat) :
    Ordinarily (ofCell cell first) :=
  .bind (Geometry.ordinarily_ofCell cell) fun geometry => .bind (ordinarily_check cell geometry) fun _ =>
    .ok _

/-! ## Connections -/

/-- A bank has the geometry and the connections of a cell, in the widths that the geometry asks
for. -/
structure Describes (bank : Bank) (cell : Cell) : Prop where
  geometry : Geometry.ofCell cell = .ok bank.geometry
  readAddress : cell.bits? "RD_ADDR" = some bank.readAddress
  readData : cell.bits? "RD_DATA" = some bank.readData
  writeAddress : cell.bits? "WR_ADDR" = some bank.writeAddress
  writeData : cell.bits? "WR_DATA" = some bank.writeData
  writeClock : cell.bits? "WR_CLK" = some bank.writeClock
  writeEnable : (cell.bits? "WR_EN").bind (Bit.slice? · 0 1) = some bank.writeEnable
  length_readAddress :
    bank.readAddress.length = bank.geometry.readPorts * bank.geometry.addressBits
  length_readData : bank.readData.length = bank.geometry.readPorts * bank.geometry.width
  length_writeEnable : bank.writeEnable.length = 1

theorem bits?_of_checkWidth
    {cell : Cell}
    {expected : String × Nat}
    (passed : checkWidth cell expected = .ok ()) :
    ∃ bits, cell.bits? expected.1 = some bits ∧ bits.length = expected.2 := by
  obtain ⟨bits, found, fits⟩ := except_bind_eq_ok.mp passed
  refine ⟨bits, ?_, ?_⟩
  · unfold Cell.bits at found
    split at found
    · rename_i isConnected
      cases found
      exact isConnected
    · cases found
  · split at fits
    · assumption
    · cases fits

theorem describes_of_ofCell
    {cell : Cell}
    {first : Nat}
    {bank : Bank}
    (accepted : ofCell cell first = .ok bank) :
    bank.Describes cell := by
  have buildable := buildable_of_ofCell accepted
  simp only [ofCell, except_bind_eq_ok] at accepted
  obtain ⟨geometry, parsed, _, checked, described⟩ := accepted
  simp only [check, except_bind_eq_ok] at checked
  obtain ⟨_, -, _, -, _, -, _, -, _, -, _, checkedWidths, -⟩ := checked
  have connections : ∀ expected ∈ widths geometry,
      ∃ bits, cell.bits? expected.1 = some bits ∧ bits.length = expected.2 :=
    fun expected listed => bits?_of_checkWidth (except_forM_eq_ok checkedWidths expected listed)
  simp only [widths, List.forall_mem_cons] at connections
  obtain ⟨⟨readAddress, readAddressFound, readAddressLength⟩,
    ⟨readData, readDataFound, readDataLength⟩, ⟨writeAddress, writeAddressFound, -⟩,
    ⟨writeData, writeDataFound, -⟩, ⟨writeClock, writeClockFound, -⟩,
    ⟨writeEnable, writeEnableFound, writeEnableLength⟩, -⟩ := connections
  simp only [readAddressFound, readDataFound, writeAddressFound, writeDataFound, writeClockFound,
    writeEnableFound, Option.getD_some] at described
  cases described
  have enabled : 1 ≤ writeEnable.length := by
    rw [writeEnableLength]
    exact buildable.width.1
  exact
    { geometry := parsed
      readAddress := readAddressFound
      readData := readDataFound
      writeAddress := writeAddressFound
      writeData := writeDataFound
      writeClock := writeClockFound
      writeEnable := by simp [writeEnableFound, Bit.slice?, enabled]
      length_readAddress := readAddressLength
      length_readData := readDataLength
      length_writeEnable := by simp [enabled] }

namespace Describes

variable {bank : Bank} {cell : Cell}

theorem slice?_readAddress
    (describes : bank.Describes cell)
    {port : Nat}
    (inRange : port < bank.geometry.readPorts) :
    Bit.slice? bank.readAddress (port * bank.geometry.addressBits)
        ((port + 1) * bank.geometry.addressBits) =
      some (bank.portAddress port) :=
  Bit.slice?_piece describes.length_readAddress inRange

theorem slice?_readData
    (describes : bank.Describes cell)
    {port : Nat}
    (inRange : port < bank.geometry.readPorts) :
    Bit.slice? bank.readData (port * bank.geometry.width) ((port + 1) * bank.geometry.width) =
      some (bank.portBits port) :=
  Bit.slice?_piece describes.length_readData inRange

theorem length_portBits
    (describes : bank.Describes cell)
    {port : Nat}
    (inRange : port < bank.geometry.readPorts) :
    (bank.portBits port).length = bank.geometry.width := by
  have inside := slice_le inRange bank.geometry.width
  rw [portBits, List.length_take, List.length_drop, describes.length_readData]
  omega

/-- The data of all read ports is the data connection. -/
theorem flatMap_portBits
    (describes : bank.Describes cell) :
    (List.range bank.geometry.readPorts).flatMap bank.portBits = bank.readData := by
  have whole := flatMap_pieces bank.readData bank.geometry.readPorts bank.geometry.width
  rw [← describes.length_readData, List.take_length] at whole
  exact whole

end Describes

end Bank

end CircuitNetwork
