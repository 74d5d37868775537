import CircuitNetwork.Netlist.Cell
import CircuitNetwork.Netlist.Nets

namespace CircuitNetwork

/-!
# Memory cells

A memory specification generates a memory cell with asynchronous read ports, one
clocked write port unless it asks for more, and no initial contents. The geometry
of a memory is read back from the parameters of a cell.
-/

/-- The cell type of memories. -/
def memoryType : String := "$mem_v2"

/-- What a memory should look like, in 64 bit integers. No write ports stand for one. -/
structure MemorySpec where
  addressBits : Int64 := 0
  width : Int64 := 0
  size : Int64 := 0
  offset : Int64 := 0
  readPorts : Int64 := 0
  writePorts : Int64 := 0
  deriving Repr, DecidableEq, Inhabited

namespace MemorySpec

/-- The number of write ports that a specification stands for. -/
def writers (spec : MemorySpec) : Int64 :=
  if spec.writePorts = 0 then 1 else spec.writePorts

/-- The length that no text exceeds: that of the 2^48 bytes that can be addressed. -/
def maxDigits : Int := 0x1000000000000

/-- The parameter that repeats one digit. -/
def repeated (digit : Char) (count : Int64) : Except Failure Param :=
  if count < 0 then
    .error (.ofMisuse .negativeRepeat)
  else if maxDigits < count.toInt then
    .error (.ofCrash .impossibleLength)
  else
    .ok (Param.replicate count.toNatClampNeg digit)

/-- The parameters that repeat a digit, with the digit and the number of repetitions. -/
def repeatedParams (spec : MemorySpec) : List (String × Char × Int64) :=
  let reads := spec.readPorts
  let writes := spec.writers
  [("INIT", 'x', spec.size * spec.width),
   ("RD_WIDE_CONTINUATION", '0', reads),
   ("RD_CLK_ENABLE", '0', reads),
   ("RD_CLK_POLARITY", '0', reads),
   ("RD_TRANSPARENCY_MASK", '0', reads * writes),
   ("RD_COLLISION_X_MASK", '0', reads * writes),
   ("RD_CE_OVER_SRST", '0', reads),
   ("RD_INIT_VALUE", 'x', reads * spec.width),
   ("RD_ARST_VALUE", 'x', reads * spec.width),
   ("RD_SRST_VALUE", 'x', reads * spec.width),
   ("WR_WIDE_CONTINUATION", '0', writes),
   ("WR_CLK_ENABLE", '1', writes),
   ("WR_CLK_POLARITY", '1', writes),
   ("WR_PRIORITY_MASK", '0', writes * writes)]

/-- The parameters that are numbers. -/
def numberParams (spec : MemorySpec) : List (String × Param) :=
  [("ABITS", Param.ofInt spec.addressBits.toInt),
   ("WIDTH", Param.ofInt spec.width.toInt),
   ("SIZE", Param.ofInt spec.size.toInt),
   ("OFFSET", Param.ofInt spec.offset.toInt),
   ("RD_PORTS", Param.ofInt spec.readPorts.toInt),
   ("WR_PORTS", Param.ofInt spec.writers.toInt)]

/-- All parameters of the generated cell. -/
def params (spec : MemorySpec) : Except Failure (List (String × Param)) := do
  let repeats ← spec.repeatedParams.mapM fun (name, digit, count) =>
    (repeated digit count).map fun param => (name, param)
  return spec.numberParams ++ repeats

/-- The connections that hold the same literal for every read port. -/
def literalBits (spec : MemorySpec) : List (String × Option (List Bit)) :=
  let reads := spec.readPorts.toNatClampNeg
  [("RD_CLK", some (List.replicate reads .x)),
   ("RD_EN", some (List.replicate reads .one)),
   ("RD_ARST", some (List.replicate reads .zero)),
   ("RD_SRST", some (List.replicate reads .zero))]

/-- Allocate the write enable bits: one net for all the bits of a write port. -/
def enableBits (width : Nat) : Nat → EStateM Failure Nets (List Bit)
  | 0 => return []
  | ports + 1 => do
      let enable ← Nets.fresh 1
      let rest ← enableBits width ports
      return enable.flatMap (List.replicate width ·) ++ rest

/-- The cell of a memory, its nets taken from an allocator. -/
def cell (spec : MemorySpec) : EStateM Failure Nets Cell := do
  let params ← match spec.params with
    | .ok params => pure params
    | .error failure => throw failure
  let reads := spec.readPorts
  let writes := spec.writers
  let readAddress ← Nets.fresh (reads * spec.addressBits).toInt
  let readData ← Nets.fresh (reads * spec.width).toInt
  let writeClock ← Nets.fresh writes.toInt
  let writeAddress ← Nets.fresh (writes * spec.addressBits).toInt
  let writeData ← Nets.fresh (writes * spec.width).toInt
  let writeEnable ← enableBits spec.width.toNatClampNeg writes.toNatClampNeg
  return {
    type := memoryType
    parameters := some (.ofList params)
    connections := some (.ofList (spec.literalBits ++ [
      ("RD_ADDR", some readAddress),
      ("RD_DATA", some readData),
      ("WR_CLK", some writeClock),
      ("WR_ADDR", some writeAddress),
      ("WR_DATA", some writeData),
      ("WR_EN", if writeEnable.isEmpty then none else some writeEnable)])) }

end MemorySpec

/-- The geometry of a memory cell. -/
structure Geometry where
  addressBits : Nat
  width : Nat
  size : Nat
  offset : Nat
  readPorts : Nat
  writePorts : Nat
  deriving Repr, DecidableEq, Inhabited

namespace Geometry

/-- A parameter that is a number and not negative. -/
def natParam (cell : Cell) (name : String) : Except Failure Nat := do
  let value ← cell.int name
  if value < 0 then
    .error (.ofReason (.negativeParameter cell.type name))
  else
    .ok value.toNat

/-- The geometry that the parameters of a memory cell give. -/
def ofCell (cell : Cell) : Except Failure Geometry := do
  if cell.type ≠ memoryType then
    .error (.ofReason (.notMemory cell.type))
  return {
    addressBits := ← natParam cell "ABITS"
    width := ← natParam cell "WIDTH"
    size := ← natParam cell "SIZE"
    offset := ← natParam cell "OFFSET"
    readPorts := ← natParam cell "RD_PORTS"
    writePorts := ← natParam cell "WR_PORTS" }

end Geometry

end CircuitNetwork
