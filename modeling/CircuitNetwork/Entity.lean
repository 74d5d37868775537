import CircuitNetwork.Combinator.Condition
import CircuitNetwork.Signal.Set

namespace CircuitNetwork

/-!
# Entities

An entity is a combinator or a fixture that only holds wires. Constants and
fixtures have one port, which is their input and their output; the other
combinators have an input port and an output port. A port knows the signals that
the entity puts out through it.
-/

/-- One slot of a constant combinator. -/
structure Filter where
  signal : Signal
  count : Int32
  index : Int
  deriving Repr, DecidableEq, Inhabited

/-- What an entity is. -/
inductive Body where
  | constant (isOn : Bool) (filters : List Filter)
  | decider (condition : Decider)
  | arithmetic (condition : Arithmetic)
  | fixture (name : String)
  deriving Repr, DecidableEq, Inhabited

/-- The ports of an entity. -/
inductive Port where
  | one
  | two
  deriving Repr, DecidableEq, Inhabited

/-- The number of a port. -/
def Port.number : Port → Nat
  | one => 1
  | two => 2

namespace Body

/-- The name of the prototype. -/
def name : Body → String
  | constant .. => "constant-combinator"
  | decider _ => "decider-combinator"
  | arithmetic _ => "arithmetic-combinator"
  | fixture name => name

/-- Whether an entity computes something. -/
def isCombinator : Body → Bool
  | fixture _ => false
  | _ => true

/-- The port that an entity puts its values out through. -/
def outputPort : Body → Port
  | constant .. | fixture _ => .one
  | decider _ | arithmetic _ => .two

/-- The signals read from the input, in order. -/
def operands : Body → List Signal
  | decider condition => condition.first :: condition.second.signal?.toList
  | arithmetic condition => condition.first :: condition.second.signal?.toList
  | constant .. | fixture _ => []

/-- The signals put out, in order. -/
def outputs : Body → List Signal
  | constant _ filters => filters.map (·.signal)
  | decider condition => [condition.output]
  | arithmetic condition => [condition.output]
  | fixture _ => []

/-- Whether the output value is the input count of the output signal. -/
def passThrough : Body → Bool
  | decider condition => condition.copyCount
  | _ => false

/-- Put one signal in the place of another where it is read. -/
def renameOperands (old new : Signal) : Body → Body
  | decider condition =>
      decider { condition with
        first := if condition.first = old then new else condition.first
        second := condition.second.rename old new }
  | arithmetic condition =>
      arithmetic { condition with
        first := if condition.first = old then new else condition.first
        second := condition.second.rename old new }
  | body => body

/-- Put one signal in the place of another where it is put out. -/
def renameOutputs (old new : Signal) : Body → Body
  | constant isOn filters =>
      constant isOn (filters.map fun filter =>
        if filter.signal = old then { filter with signal := new } else filter)
  | decider condition =>
      decider { condition with output := if condition.output = old then new else condition.output }
  | arithmetic condition =>
      arithmetic
        { condition with output := if condition.output = old then new else condition.output }
  | fixture name => fixture name

/-- The count of the first slot with a signal. -/
def filterCount? (signal : Signal) : Body → Option Int32
  | constant _ filters => (filters.find? (·.signal = signal)).map (·.count)
  | _ => none

/-- A constant combinator that is on. -/
def ofFilters (filters : List Filter) : Body :=
  constant true filters

/-- A constant combinator that puts one count out on the value signal. -/
def ofCount (count : Int32) : Body :=
  ofFilters [{ signal := .value, count := count, index := 1 }]

end Body

/-- A position on the grid, in half tiles. -/
structure Position where
  x : Nat := 0
  y : Nat := 0
  deriving Repr, DecidableEq, Inhabited

/-- An entity. Its number is zero until an arena gives it one. -/
structure Entity where
  body : Body
  number : Nat := 0
  position : Position := {}
  direction : Int := 0
  firstSignals : SignalSet := SignalMap.empty
  secondSignals : SignalSet := SignalMap.empty
  deriving Repr, DecidableEq, Inhabited

namespace Entity

/-- A new entity. The port that it puts its values out through knows its output signals. -/
def ofBody (body : Body) : Entity :=
  match body.outputPort with
  | .one => { body := body, firstSignals := .ofList body.outputs }
  | .two => { body := body, secondSignals := .ofList body.outputs }

/-- The name and the number of an entity. -/
def label (entity : Entity) : String :=
  entity.body.name ++ " #" ++ toString entity.number

/-- The signals that a port knows. -/
def signals (entity : Entity) : Port → SignalSet
  | .one => entity.firstSignals
  | .two => entity.secondSignals

/-- Change the signals that a port knows. -/
def mapSignals (entity : Entity) (change : SignalSet → SignalSet) : Port → Entity
  | .one => { entity with firstSignals := change entity.firstSignals }
  | .two => { entity with secondSignals := change entity.secondSignals }

end Entity

end CircuitNetwork
