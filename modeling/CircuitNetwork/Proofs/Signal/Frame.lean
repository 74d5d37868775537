import CircuitNetwork.Proofs.Signal.Map
import CircuitNetwork.Signal.Frame
import Mathlib.Algebra.BigOperators.Group.List.Basic
import Mathlib.Algebra.Group.Int.Defs

namespace CircuitNetwork

/-!
# Counts of frames

What every operation on frames does to the count of a signal.  A proper frame
lists its signals in order and none with a count of zero, so it is determined by
its counts; all operations keep frames proper.
-/

namespace Frame

@[simp] theorem count_empty
    (signal : Signal) :
    count SignalMap.empty signal = 0 := by
  rfl

/-- Assigning replaces the count of one signal. -/
@[simp] theorem count_assign
    (frame : Frame)
    (signal asked : Signal)
    (value : Int32) :
    (frame.assign signal value).count asked =
      if asked = signal then value else frame.count asked := by
  unfold assign count
  split
  · rename_i isZero
    rw [SignalMap.find?_erase]
    split <;> simp [isZero]
  · rw [SignalMap.find?_insert]
    split <;> rfl

/-- Only a count other than zero is offered. -/
@[simp] theorem count_offer
    (frame : Frame)
    (signal asked : Signal)
    (value : Int32) :
    (frame.offer signal value).count asked =
      if asked = signal ∧ value ≠ 0 then value else frame.count asked := by
  unfold offer count
  split
  · rename_i isZero
    simp [isZero]
  · rename_i nonzero
    rw [SignalMap.find?_insert]
    by_cases same : asked = signal <;> simp [same, nonzero]

@[simp] theorem count_single
    (signal asked : Signal)
    (value : Int32) :
    (single signal value).count asked = if asked = signal then value else 0 := by
  simp [single]

/-- A frame in signal order that lists no count of zero. -/
structure Proper (frame : Frame) : Prop where
  ordered : frame.Ordered
  nonzero : ∀ signal, frame.find? signal ≠ some 0

theorem proper_empty : Proper SignalMap.empty where
  ordered := SignalMap.ordered_empty
  nonzero := by simp

/-- Also a count of zero can be assigned, because the signal is dropped then. -/
theorem Proper.assign
    {frame : Frame}
    (proper : frame.Proper)
    (signal : Signal)
    (value : Int32) :
    (frame.assign signal value).Proper := by
  unfold Frame.assign
  split
  · refine ⟨SignalMap.ordered_erase proper.ordered signal, ?_⟩
    intro asked
    rw [SignalMap.find?_erase]
    split
    · simp
    · exact proper.nonzero asked
  · rename_i nonzero
    refine ⟨SignalMap.ordered_insert proper.ordered signal value, ?_⟩
    intro asked
    rw [SignalMap.find?_insert]
    split
    · simpa using nonzero
    · exact proper.nonzero asked

theorem Proper.offer
    {frame : Frame}
    (proper : frame.Proper)
    (signal : Signal)
    (value : Int32) :
    (frame.offer signal value).Proper := by
  unfold Frame.offer
  split
  · exact proper
  · rename_i nonzero
    have assigned := proper.assign signal value
    rwa [Frame.assign, if_neg nonzero] at assigned

theorem proper_single
    (signal : Signal)
    (value : Int32) :
    (single signal value).Proper :=
  proper_empty.assign signal value

/-- Adding a list of entries with distinct signals adds the count of each of them. -/
theorem count_foldl_assign
    (entries : List (Signal × Int32))
    (distinct : entries.Pairwise fun first second => first.1.before second.1 = true)
    (frame : Frame)
    (asked : Signal) :
    (entries.foldl
        (fun total entry => Frame.assign total entry.1 (entry.2 + Frame.count total entry.1))
        frame).count asked =
      frame.count asked + (entries.lookup asked).getD 0 := by
  induction entries generalizing frame with
  | nil =>
      simp
  | cons entry rest inductionHypothesis =>
      obtain ⟨key, value⟩ := entry
      obtain ⟨afterKey, restDistinct⟩ := List.pairwise_cons.mp distinct
      rw [List.foldl_cons, inductionHypothesis restDistinct, SignalMap.lookup_entry_cons,
        count_assign]
      by_cases same : asked = key
      · subst same
        rw [SignalMap.lookup_eq_none_of_before afterKey]
        simp [Int32.add_comm]
      · simp [same]

/-- Frames are added signal by signal. -/
theorem count_add
    (frame : Frame)
    {other : Frame}
    (ordered : other.Ordered)
    (signal : Signal) :
    (frame.add other).count signal = frame.count signal + other.count signal :=
  count_foldl_assign other.entries ordered frame signal

end Frame

end CircuitNetwork
