import CircuitNetwork.Proofs.Circuit.Regular

namespace CircuitNetwork.Circuit

/-!
# Reachable states of a simulation

A simulation starts with empty outputs. Then constants can be driven, drivers can
be given other values, and steps can be taken, in any order.
-/

/-- The states that a simulation on a board can reach, if some signals of some constants may be
driven. -/
inductive Reached (board : Board) (MayDrive : Nat → Signal → Prop) : Circuit → Prop where
  | start
      {workers : Int}
      {entities : List Nat}
      {circuit : Circuit}
      (built : ofEntities board workers entities = .ok circuit) :
      Reached board MayDrive circuit
  | drive
      {circuit : Circuit}
      (before : Reached board MayDrive circuit)
      {entity : Nat}
      {signal : Signal}
      (allowed : MayDrive entity signal)
      (source : Nat → Int32) :
      Reached board MayDrive (circuit.drive board entity signal source)
  | change
      {circuit : Circuit}
      (before : Reached board MayDrive circuit)
      (index : Nat)
      (source : Nat → Int32) :
      Reached board MayDrive
        { circuit with drivers := circuit.drivers.modify index ({ · with source := source }) }
  | step
      {circuit : Circuit}
      (before : Reached board MayDrive circuit) :
      Reached board MayDrive (circuit.step board)

namespace Reached

variable {board : Board} {MayDrive : Nat → Signal → Prop} {circuit : Circuit}

theorem run
    (reached : circuit.Reached board MayDrive)
    (count : Nat) :
    (circuit.run board count).Reached board MayDrive := by
  induction count with
  | zero =>
      exact reached
  | succ count inductionHypothesis =>
      rw [run_succ]
      exact inductionHypothesis.step

theorem sound
    (reached : circuit.Reached board MayDrive) :
    circuit.Sound := by
  induction reached with
  | start built =>
      obtain ⟨-, -, -, rfl⟩ := ofEntities_eq_ok_iff.mp built
      exact sound_fresh _ _
  | drive _ _ _ inductionHypothesis =>
      exact ⟨inductionHypothesis.sized, inductionHypothesis.proper⟩
  | change _ _ _ inductionHypothesis =>
      exact ⟨inductionHypothesis.sized, inductionHypothesis.proper⟩
  | step _ inductionHypothesis =>
      exact inductionHypothesis.step board

/-- Only what may be driven is driven, through the slot that has the signal. -/
theorem driven
    (reached : circuit.Reached board MayDrive) :
    ∀ driver ∈ circuit.drivers.toList,
      MayDrive driver.entity driver.signal ∧
        driver.slot = slot? (board.entity driver.entity).body driver.signal := by
  induction reached with
  | start built =>
      obtain ⟨-, -, -, rfl⟩ := ofEntities_eq_ok_iff.mp built
      simp [fresh]
  | drive _ allowed _ inductionHypothesis =>
      intro driver isDriver
      simp only [Circuit.drive, Array.toList_push, List.mem_append, List.mem_singleton] at isDriver
      rcases isDriver with before | rfl
      · exact inductionHypothesis driver before
      · exact ⟨allowed, rfl⟩
  | change _ index source inductionHypothesis =>
      intro driver isDriver
      obtain ⟨place, found⟩ := List.getElem?_of_mem isDriver
      rw [Array.getElem?_toList, Array.getElem?_modify] at found
      split at found
      · obtain ⟨before, atPlace, rfl⟩ := Option.map_eq_some_iff.mp found
        exact inductionHypothesis before (Array.mem_toList_iff.mpr (Array.mem_of_getElem? atPlace))
      · exact inductionHypothesis driver (Array.mem_toList_iff.mpr (Array.mem_of_getElem? found))
  | step _ inductionHypothesis =>
      intro driver isDriver
      simp only [Circuit.step, Array.toList_map, List.mem_map] at isDriver
      obtain ⟨before, isBefore, rfl⟩ := isDriver
      have kept := inductionHypothesis before isBefore
      split
      · exact kept
      · exact kept

/-- What may not be driven has no drivers. -/
theorem filter_drivers_eq_nil
    (reached : circuit.Reached board MayDrive)
    {id : Nat}
    (undriven : ∀ signal, ¬MayDrive id signal) :
    circuit.drivers.toList.filter (·.entity = id) = [] := by
  rw [List.filter_eq_nil_iff]
  intro driver isDriver
  simp only [decide_eq_true_eq]
  rintro rfl
  exact undriven _ (reached.driven driver isDriver).1

/-- A constant without slots that may not be driven puts nothing out. -/
theorem output_eq_empty_of_undriven
    (reached : circuit.Reached board MayDrive)
    {id : Nat}
    (body : (board.entity id).body = .ofFilters [])
    (undriven : ∀ signal, ¬MayDrive id signal) :
    circuit.output id = SignalMap.empty := by
  induction reached with
  | start built =>
      obtain ⟨-, -, -, rfl⟩ := ofEntities_eq_ok_iff.mp built
      exact output_fresh _ _ id
  | drive _ _ _ inductionHypothesis =>
      exact inductionHypothesis
  | change _ _ _ inductionHypothesis =>
      exact inductionHypothesis
  | @step circuit before inductionHypothesis =>
      by_cases member : id ∈ circuit.members
      · rw [output_step before.sound.sized board member, nextOutput, body]
        simp only [Body.ofFilters, before.filter_drivers_eq_nil undriven, constantOutput]
        rfl
      · exact output_eq_empty (by simpa using member)

/-- A constant that may not be driven puts out its own count. -/
theorem count_nextOutput_of_undriven
    (reached : circuit.Reached board MayDrive)
    {id : Nat}
    {count : Int32}
    (body : (board.entity id).body = .ofCount count)
    (undriven : ∀ signal, ¬MayDrive id signal) :
    Frame.count (circuit.nextOutput board id) .value = count := by
  rw [nextOutput, body]
  simp only [Body.ofCount, Body.ofFilters, reached.filter_drivers_eq_nil undriven, constantOutput,
    if_true, List.foldl_cons, List.foldl_nil, Frame.count_offer, Frame.count_empty]
  by_cases isZero : count = 0
  · simp [isZero]
  · simp [isZero]

/-- If only signals of slots may be driven, then drivers follow slots. -/
theorem slotted
    (reached : circuit.Reached board MayDrive)
    (slots :
      ∀ entity signal, MayDrive entity signal →
        ∀ isOn filters, (board.entity entity).body = .constant isOn filters →
          signal ∈ filters.map (·.signal)) :
    ∀ driver ∈ circuit.drivers.toList, driver.Slotted board := by
  intro driver isDriver isOn filters body
  obtain ⟨allowed, slot⟩ := reached.driven driver isDriver
  rw [slot, body]
  exact exists_slot (slots _ _ allowed isOn filters body) isOn

/-- If only signals of slots may be driven, then members put out only their own signals. -/
theorem regular
    (reached : circuit.Reached board MayDrive)
    (slots :
      ∀ entity signal, MayDrive entity signal →
        ∀ isOn filters, (board.entity entity).body = .constant isOn filters →
          signal ∈ filters.map (·.signal)) :
    circuit.Regular board := by
  refine ⟨reached.sound, reached.slotted slots, ?_⟩
  induction reached with
  | start built =>
      obtain ⟨-, -, -, rfl⟩ := ofEntities_eq_ok_iff.mp built
      intro id signal _
      rw [output_fresh, Frame.count_empty]
  | drive _ _ _ inductionHypothesis =>
      exact inductionHypothesis
  | change _ _ _ inductionHypothesis =>
      exact inductionHypothesis
  | step before inductionHypothesis =>
      exact (Regular.step ⟨before.sound, before.slotted slots, inductionHypothesis⟩).within

end Reached

end CircuitNetwork.Circuit
