import CircuitNetwork.Signal.Map

namespace CircuitNetwork

/-!
# Sets of signals
-/

/-- A finite set of signals. -/
abbrev SignalSet := SignalMap Unit

namespace SignalSet

/-- Add a signal. -/
def add (set : SignalSet) (signal : Signal) : SignalSet :=
  set.insert signal ()

/-- Add every signal of a list. -/
def addAll (set : SignalSet) (signals : List Signal) : SignalSet :=
  signals.foldl add set

/-- The set of the signals in a list. -/
def ofList (signals : List Signal) : SignalSet :=
  addAll SignalMap.empty signals

/-- The signals of both sets. -/
def union (set other : SignalSet) : SignalSet :=
  set.addAll other.keys

/-- Put one signal in the place of another. A set without the old signal stays as it is. -/
def replace (set : SignalSet) (old new : Signal) : SignalSet :=
  if set.contains old then
    add (set.erase old) new
  else
    set

end SignalSet

end CircuitNetwork
