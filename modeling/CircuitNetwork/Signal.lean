namespace CircuitNetwork

/-!
# Signals

A signal names one kind of value on a wire. Many signals share a wire, and each
of them carries its own count. Signals are ordered by type, then by name.
-/

/-- The identity of a value on a wire. -/
structure Signal where
  type : String
  name : String
  deriving Repr, DecidableEq, Inhabited

namespace Signal

/-- The virtual signal with the given name. -/
def virtual (name : String) : Signal :=
  ⟨"virtual", name⟩

/-- The signal that carries the value of a bit vector. -/
def value : Signal := virtual "signal-V"

/-- The signal that carries selectors, decoded addresses and second operands. -/
def control : Signal := virtual "signal-C"

/-- The wildcard that operates on each signal separately. -/
def each : Signal := virtual "signal-each"

/-- The wildcard that stands for all signals. -/
def everything : Signal := virtual "signal-everything"

/-- The wildcard that stands for some signal. -/
def anything : Signal := virtual "signal-anything"

/-- A signal whose type and name are both empty stands for no signal. -/
def isZero (signal : Signal) : Bool :=
  signal.type = "" && signal.name = ""

/-- The three wildcards are no signals of their own. -/
def isWildcard (signal : Signal) : Bool :=
  signal = each || signal = everything || signal = anything

/-- The written form: the type, a slash, the name. -/
def text (signal : Signal) : String :=
  signal.type ++ "/" ++ signal.name

/-- Read a written signal. The first slash divides the type from the name. -/
def ofText (text : String) : Signal :=
  let characters := text.toList
  { type := String.ofList (characters.takeWhile (· != '/'))
    name := String.ofList ((characters.dropWhile (· != '/')).drop 1) }

/-- Signals are ordered by type and, within a type, by name. -/
def before (first second : Signal) : Bool :=
  first.type < second.type ||
    (first.type = second.type && first.name < second.name)

end Signal

end CircuitNetwork
