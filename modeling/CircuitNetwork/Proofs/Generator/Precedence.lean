import CircuitNetwork.Generator.Config
import CircuitNetwork.Proofs.Generator.CommandLine
import Mathlib.Tactic.Common

namespace CircuitNetwork

/-!
# Precedence of settings

Each part of a configuration has the value of the last flag for it. Without one it
has the value in the document of the file that the command line names, and
without that its default. Files are decoded by any decoder that puts what a
document says into the parts of a configuration.
-/

/-! ## Parts of a configuration -/

/-- The numbers of a memory specification. -/
inductive MemoryPart where
  | addressBits
  | width
  | size
  | offset
  | readPorts
  | writePorts

namespace MemoryPart

/-- The name of a number in a document. -/
def key : MemoryPart → String
  | addressBits => "abits"
  | width => "width"
  | size => "size"
  | offset => "offset"
  | readPorts => "rd_ports"
  | writePorts => "wr_ports"

/-- The number in a specification. -/
def get : MemoryPart → MemorySpec → Int64
  | addressBits => MemorySpec.addressBits
  | width => MemorySpec.width
  | size => MemorySpec.size
  | offset => MemorySpec.offset
  | readPorts => MemorySpec.readPorts
  | writePorts => MemorySpec.writePorts

end MemoryPart

/-- The numbers of a configuration. -/
inductive NumberPart where
  | memory (part : MemoryPart)
  | columns

/-- The texts of a configuration. -/
inductive TextPart where
  | logLevel
  | output

namespace NumberPart

/-- The number in a configuration. -/
def get : NumberPart → Config → Int64
  | memory part => fun config => part.get config.memory
  | columns => Config.columns

/-- Where a number is in a document. -/
def path : NumberPart → List String
  | memory part => ["memory", part.key]
  | columns => ["columns"]

end NumberPart

namespace TextPart

/-- The text in a configuration. -/
def get : TextPart → Config → String
  | logLevel => Config.logLevel
  | output => Config.output

/-- The flag for a text. -/
def flag : TextPart → TextFlag
  | logLevel => .logLevel
  | output => .output

/-- Where a text is in a document. -/
def path : TextPart → List String
  | logLevel => ["log_level"]
  | output => ["output"]

end TextPart

/-! ## Settings of the command line -/

/-- What a document has in a place. -/
inductive Entry (α : Type) where
  | absent
  | null
  | value (found : α)

/-- The value of an entry, if it has one. -/
def Entry.value? {α : Type} : Entry α → Option α
  | value found => some found
  | _ => none

/-- A document: what stands at a path of names, as an integer and as a text. -/
structure Document where
  number : List String → Entry Int64
  text : List String → Entry String

/-- A document with nothing in it. -/
def Document.empty : Document where
  number _ := .absent
  text _ := .absent

namespace Config

end Config

end CircuitNetwork
