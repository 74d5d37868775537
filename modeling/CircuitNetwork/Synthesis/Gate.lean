import CircuitNetwork.Wire.Part

namespace CircuitNetwork

/-!
# Gates

The parts that compute comparisons, arithmetic and selections. All values travel
on the value signal. A transformer moves a second operand to the control signal,
so that a combinator can read two values at once: the first one comes on a red
wire and the second one on a green wire.
-/

/-- The arithmetic combinator that moves a value to the control signal. -/
def transformer : Body :=
  .arithmetic {
    first := .value
    second := .constant 0
    operator := .add
    output := .control }

/-- The decider that puts out one if a comparison of its two operands holds. -/
def comparison (comparator : Comparator) : Body :=
  .decider {
    first := .value
    second := .signal .control
    comparator := comparator
    output := .value
    copyCount := false }

/-- The arithmetic combinator that applies an operation to its two operands. -/
def operation (operator : Operator) : Body :=
  .arithmetic {
    first := .value
    second := .signal .control
    operator := operator
    output := .value }

/-- The decider that compares a signal with a constant and puts out another signal. -/
def selector
    (comparator : Comparator)
    (first : Signal)
    (constant : Int32)
    (copyCount : Bool)
    (output : Signal) :
    Body :=
  .decider {
    first := first
    second := .constant constant
    comparator := comparator
    output := output
    copyCount := copyCount }

/-- A combinator of two operands, with the transformer of its second operand in front. -/
def gatePart (combinator : Body) : Part :=
  { bodies := [transformer, combinator]
    wires := [(.green, [⟨0, .two⟩, ⟨1, .one⟩])] }

/-- A multiplexer: the transformer of the selection, and a decider for each of the two values. Only
one of the deciders lets its value through, and they share the wire that they put it out on. -/
def muxPart : Part :=
  { bodies := [
      transformer,
      selector .equal .control 0 true .value,
      selector .notEqual .control 0 true .value]
    wires := [
      (.green, [⟨0, .two⟩, ⟨1, .one⟩, ⟨2, .one⟩]),
      (.red, [⟨1, .two⟩, ⟨2, .two⟩])] }

end CircuitNetwork
