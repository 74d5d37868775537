import CircuitNetwork.Signal.Map

namespace CircuitNetwork

/-!
# Frames

A frame gives every signal a 32 bit count: the output of a combinator, or the
sum of all outputs on a network. A signal that is not listed counts zero, and a
frame built with these operations lists no zero.
-/

/-- The counts of the signals on a wire. -/
abbrev Frame := SignalMap Int32

namespace Frame

/-- The count of a signal. -/
def count (frame : Frame) (signal : Signal) : Int32 :=
  (frame.find? signal).getD 0

/-- Set the count of a signal. -/
def assign (frame : Frame) (signal : Signal) (count : Int32) : Frame :=
  if count = 0 then
    frame.erase signal
  else
    frame.insert signal count

/-- Set the count of a signal, unless the new count is zero. -/
def offer (frame : Frame) (signal : Signal) (count : Int32) : Frame :=
  if count = 0 then
    frame
  else
    frame.insert signal count

/-- Add the counts of two frames, signal by signal, with wrap-around. -/
def add (frame other : Frame) : Frame :=
  other.entries.foldl
    (fun total entry => total.assign entry.1 (entry.2 + total.count entry.1))
    frame

/-- The frame with one count. -/
def single (signal : Signal) (count : Int32) : Frame :=
  assign SignalMap.empty signal count

end Frame

end CircuitNetwork
