import CircuitNetwork.Signal

namespace CircuitNetwork

/-!
# Maps keyed by signals

A map from signals to values, kept as a list of entries in signal order. Equal
contents have equal lists, so sets and frames built on it can be compared
directly.
-/

/-- A finite map from signals, its entries in signal order. -/
structure SignalMap (α : Type) where
  entries : List (Signal × α)
  deriving Repr, DecidableEq, Inhabited

namespace SignalMap

variable {α : Type}

/-- The map without entries. -/
def empty : SignalMap α := ⟨[]⟩

/-- The value of a signal, if it has one. -/
def find? (map : SignalMap α) (signal : Signal) : Option α :=
  map.entries.lookup signal

/-- Whether a signal has a value. -/
def contains (map : SignalMap α) (signal : Signal) : Bool :=
  (map.find? signal).isSome

/-- Put an entry in its place in a list of entries, instead of one with the same signal. -/
def insertEntry (signal : Signal) (value : α) : List (Signal × α) → List (Signal × α)
  | [] => [(signal, value)]
  | (key, old) :: rest =>
      if signal.before key then
        (signal, value) :: (key, old) :: rest
      else if signal = key then
        (signal, value) :: rest
      else
        (key, old) :: insertEntry signal value rest

/-- Give a signal a value. -/
def insert (map : SignalMap α) (signal : Signal) (value : α) : SignalMap α :=
  ⟨insertEntry signal value map.entries⟩

/-- Take a signal's value away. -/
def erase (map : SignalMap α) (signal : Signal) : SignalMap α :=
  ⟨map.entries.filter (·.1 ≠ signal)⟩

/-- The signals with a value, in order. -/
def keys (map : SignalMap α) : List Signal :=
  map.entries.map (·.1)

end SignalMap

end CircuitNetwork
