import CircuitNetwork.Netlist.Memory
import CircuitNetwork.Synthesis.Gate

namespace CircuitNetwork

/-!
# Memory banks

A memory is a latch for every row. A write pulse arises when clock and enable
are both one, and it reaches the row whose address is on the write address wire.
The first decider of a latch puts out the written data while the pulse is there,
and the second one repeats the output of the latch while it is not. A read port
compares its address with the address of every row and puts the value of the row
that matches on a shared wire.

Only memories without clocked or initialised features, and with one write port,
can be built this way.
-/

/-- A parameter that must consist of one digit. -/
structure ParamRule where
  name : String
  subject : String
  digit : Char
  deriving Repr, DecidableEq, Inhabited

/-- A connection that must consist of one literal. -/
structure BitRule where
  name : String
  subject : String
  bit : Bit
  deriving Repr, DecidableEq, Inhabited

/-- A memory with everything that is needed to wire it. Its entities start at a given identity. -/
structure Bank where
  geometry : Geometry
  first : Nat
  writeClock : List Bit
  writeEnable : List Bit
  writeAddress : List Bit
  writeData : List Bit
  readAddress : List Bit
  readData : List Bit
  deriving Repr, DecidableEq, Inhabited

namespace Bank

/-- The rules for the parameters of the read ports, after the one for the initial contents. -/
def readParamRules : List ParamRule := [
  ⟨"INIT", "initial contents", 'x'⟩,
  ⟨"RD_WIDE_CONTINUATION", "read port width", '0'⟩,
  ⟨"RD_CLK_ENABLE", "read clock", '0'⟩,
  ⟨"RD_CLK_POLARITY", "read clock polarity", '0'⟩,
  ⟨"RD_TRANSPARENCY_MASK", "read transparency", '0'⟩,
  ⟨"RD_COLLISION_X_MASK", "read collision", '0'⟩,
  ⟨"RD_CE_OVER_SRST", "read reset", '0'⟩,
  ⟨"RD_INIT_VALUE", "read initial value", 'x'⟩,
  ⟨"RD_ARST_VALUE", "read reset", 'x'⟩,
  ⟨"RD_SRST_VALUE", "read reset", 'x'⟩]

/-- The rules for the parameters of the write port. -/
def writeParamRules : List ParamRule := [
  ⟨"WR_WIDE_CONTINUATION", "write port width", '0'⟩,
  ⟨"WR_CLK_ENABLE", "write clock", '1'⟩,
  ⟨"WR_CLK_POLARITY", "write clock polarity", '1'⟩,
  ⟨"WR_PRIORITY_MASK", "write priority", '0'⟩]

/-- The rules for connections with a fixed value. -/
def bitRules : List BitRule := [
  ⟨"RD_CLK", "read clock", .x⟩,
  ⟨"RD_EN", "read enable", .one⟩,
  ⟨"RD_ARST", "read reset", .zero⟩,
  ⟨"RD_SRST", "read reset", .zero⟩]

/-- The widths of the other connections. -/
def widths (geometry : Geometry) : List (String × Nat) := [
  ("RD_ADDR", geometry.readPorts * geometry.addressBits),
  ("RD_DATA", geometry.readPorts * geometry.width),
  ("WR_ADDR", geometry.addressBits),
  ("WR_DATA", geometry.width),
  ("WR_CLK", 1),
  ("WR_EN", geometry.width)]

/-- A feature that cannot be built. -/
def unsupported (subject message : String) : Failure :=
  .ofFault ⟨.unsupported, subject, message⟩

/-- Check the sizes of a memory. -/
def checkLimits (geometry : Geometry) : Except Failure Unit :=
  if geometry.addressBits > 32 then
    .error (unsupported "address width"
      (toString geometry.addressBits ++ " bits, at most 32 supported"))
  else if geometry.width > 32 then
    .error (unsupported "data width" (toString geometry.width ++ " bits, at most 32 supported"))
  else if geometry.width < 1 then
    .error (unsupported "data width" "zero width memory")
  else if geometry.size < 1 then
    .error (unsupported "memory size" "memory has no rows")
  else
    .ok ()

/-- Check a parameter against its rule. -/
def checkParam (cell : Cell) (rule : ParamRule) : Except Failure Unit := do
  let param ← cell.param rule.name
  if param.allAre rule.digit.toUInt8 then
    .ok ()
  else
    .error (unsupported rule.subject
      (rule.name ++ " must be all " ++ String.singleton rule.digit ++ ", got " ++ param.digits))

/-- Check that there is one write port. -/
def checkWriters (geometry : Geometry) : Except Failure Unit :=
  if geometry.writePorts = 1 then
    .ok ()
  else
    .error (unsupported "write port count"
      ("only one write port supported, got " ++ toString geometry.writePorts))

/-- Check a connection against its rule. -/
def checkBits (cell : Cell) (rule : BitRule) : Except Failure Unit := do
  let bits ← cell.bits rule.name
  if Bit.allAre bits rule.bit then
    .ok ()
  else
    .error (unsupported rule.subject
      (rule.name ++ " must be all " ++ rule.bit.text ++ ", got " ++ Bit.vectorText bits))

/-- Check the width of a connection. -/
def checkWidth (cell : Cell) (expected : String × Nat) : Except Failure Unit := do
  let bits ← cell.bits expected.1
  if bits.length = expected.2 then
    .ok ()
  else
    .error (.ofReason (.connectionWidth cell.type expected.1 bits.length expected.2))

/-- Check that all bits of a word are written at once. -/
def checkEnable (bits : List Bit) : Except Failure Unit :=
  if Bit.allAre bits (bits.headD default) then
    .ok ()
  else
    .error (unsupported "write enable" ("per bit write enable " ++ Bit.vectorText bits))

/-- Check that a memory cell uses only features that can be built. -/
def check (cell : Cell) (geometry : Geometry) : Except Failure Unit := do
  checkLimits geometry
  readParamRules.forM (checkParam cell)
  checkWriters geometry
  writeParamRules.forM (checkParam cell)
  bitRules.forM (checkBits cell)
  (widths geometry).forM (checkWidth cell)
  checkEnable ((cell.bits? "WR_EN").getD [])

/-- The bank that a memory cell describes, its entities starting at a given identity. -/
def ofCell (cell : Cell) (first : Nat) : Except Failure Bank := do
  let geometry ← Geometry.ofCell cell
  check cell geometry
  let bits (name : String) := (cell.bits? name).getD []
  return {
    geometry := geometry
    first := first
    writeClock := bits "WR_CLK"
    writeEnable := (bits "WR_EN").take 1
    writeAddress := bits "WR_ADDR"
    writeData := bits "WR_DATA"
    readAddress := bits "RD_ADDR"
    readData := bits "RD_DATA" }

/-- Where the decider that selects a row for writing stands. -/
def selectAt (row : Nat) : Nat := 1 + 3 * row

/-- Where the decider that takes new data into a row stands. -/
def latchAt (row : Nat) : Nat := 2 + 3 * row

/-- Where the decider that keeps the data of a row stands. -/
def holdAt (row : Nat) : Nat := 3 + 3 * row

/-- Where the address transformer of a read port stands. -/
def addressAt (geometry : Geometry) (port : Nat) : Nat :=
  1 + 3 * geometry.size + port * (1 + geometry.size)

/-- Where the decider that reads a row through a port stands. -/
def readAt (geometry : Geometry) (port row : Nat) : Nat :=
  addressAt geometry port + 1 + row

/-- The address of a row. -/
def rowAddress (geometry : Geometry) (row : Nat) : Int32 :=
  Int32.ofNat row + Int32.ofNat geometry.offset

/-- The decider that turns a clock and an enable of one into the write pulse. -/
def pulse : Body := selector .equal .value 2 false .control

/-- The entities of a row. -/
def rowBodies (geometry : Geometry) (row : Nat) : List Body := [
  selector .equal .value (rowAddress geometry row) true .control,
  selector .equal .control 1 true .value,
  selector .equal .control 0 true .value]

/-- The entities of a read port. -/
def portBodies (geometry : Geometry) : List Body :=
  transformer :: (List.range geometry.size).map fun row =>
    selector .equal .control (rowAddress geometry row) true .value

/-- The wires of a row: the pulse, the selection, the common output of the latch and its feedback. -/
def rowWires (row : Nat) : List (Color × List Endpoint) := [
  (.green, [⟨0, .two⟩, ⟨selectAt row, .one⟩]),
  (.green, [⟨selectAt row, .two⟩, ⟨latchAt row, .one⟩, ⟨holdAt row, .one⟩]),
  (.green, [⟨latchAt row, .two⟩, ⟨holdAt row, .two⟩]),
  (.red, [⟨holdAt row, .two⟩, ⟨holdAt row, .one⟩, ⟨latchAt row, .two⟩])]

/-- The wires of a read port as far as its rows are wired, and the decider of the last of them. -/
structure ReadChain where
  wires : List (Color × List Endpoint) := []
  last : Option Nat := none
  deriving Repr, DecidableEq, Inhabited

/-- Wire the decider of one more row to the row, to the address, and to the decider before it. -/
def ReadChain.extend (geometry : Geometry) (port : Nat) (chain : ReadChain) (row : Nat) : ReadChain :=
  let reader := readAt geometry port row
  let read : List (Color × List Endpoint) := [
    (.green, [⟨latchAt row, .two⟩, ⟨reader, .one⟩]),
    (.red, [⟨addressAt geometry port, .two⟩, ⟨reader, .one⟩])]
  let shared : List (Color × List Endpoint) :=
    match chain.last with
    | none => []
    | some last => Color.all.map fun color => (color, [⟨last, .two⟩, ⟨reader, .two⟩])
  { wires := chain.wires ++ (read ++ shared), last := some reader }

/-- The wires of a read port, and the decider of its last row, if there are rows. -/
def readChain (geometry : Geometry) (port : Nat) : ReadChain :=
  (List.range geometry.size).foldl (ReadChain.extend geometry port) {}

/-- The part that holds a memory, apart from the wires to its inputs. -/
def part (geometry : Geometry) : Part :=
  let rows := List.range geometry.size
  let ports := List.range geometry.readPorts
  { bodies :=
      pulse :: rows.flatMap (rowBodies geometry) ++ ports.flatMap fun _ => portBodies geometry
    wires :=
      rows.flatMap rowWires ++
        ports.flatMap fun port => (readChain geometry port).wires }

/-- The number of entities of a memory. -/
def entityCount (geometry : Geometry) : Nat :=
  1 + 3 * geometry.size + geometry.readPorts * (1 + geometry.size)

/-- The data bits of a read port. -/
def portBits (bank : Bank) (port : Nat) : List Bit :=
  (bank.readData.drop (port * bank.geometry.width)).take bank.geometry.width

/-- The address bits of a read port. -/
def portAddress (bank : Bank) (port : Nat) : List Bit :=
  (bank.readAddress.drop (port * bank.geometry.addressBits)).take bank.geometry.addressBits

/-- The endpoint that carries the data of a read port: the output of the decider of its last row. -/
def portOutput? (bank : Bank) (port : Nat) : Option Endpoint :=
  (readChain bank.geometry port).last.map fun last => ⟨bank.first + last, .two⟩

end Bank

end CircuitNetwork
