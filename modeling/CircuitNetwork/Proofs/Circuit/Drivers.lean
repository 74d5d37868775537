import CircuitNetwork.Proofs.Circuit.Reach

namespace CircuitNetwork.Circuit

/-!
# The drivers of a constant

Of the drivers of one signal of a constant only the one that was added last counts.
If its source gives the same value whenever it is asked, then the constant holds
that value.
-/

variable {circuit : Circuit} {board : Board} {entity : Nat}

/-- A driver of a constant after which no other one was added. -/
structure Latest (circuit : Circuit) (entity index : Nat) (driver : Driver) : Prop where
  found : circuit.drivers[index]? = some driver
  entity_eq : driver.entity = entity
  last :
    ∀ {other later}, index < other → circuit.drivers[other]? = some later →
      later.entity ≠ entity

/-- The latest driver of a constant gives one value only. -/
def Holds (circuit : Circuit) (entity : Nat) (value : Int32) : Prop :=
  ∃ index driver, circuit.Latest entity index driver ∧ driver.source = fun _ => value

namespace Latest

variable {index : Nat} {driver : Driver}

/-- The drivers of the constant end with the latest one. -/
theorem exists_filter_eq
    (latest : circuit.Latest entity index driver) :
    ∃ earlier, circuit.drivers.toList.filter (·.entity = entity) = earlier ++ [driver] := by
  have found := latest.found
  rw [← Array.getElem?_toList] at found
  obtain ⟨inRange, isDriver⟩ := List.getElem?_eq_some_iff.mp found
  have after : (circuit.drivers.toList.drop (index + 1)).filter (·.entity = entity) = [] := by
    rw [List.filter_eq_nil_iff]
    intro later member
    obtain ⟨place, atPlace⟩ := List.getElem?_of_mem member
    rw [List.getElem?_drop, Array.getElem?_toList] at atPlace
    simpa using latest.last (by omega) atPlace
  refine ⟨(circuit.drivers.toList.take index).filter (·.entity = entity), ?_⟩
  calc circuit.drivers.toList.filter (·.entity = entity)
      = (circuit.drivers.toList.take index ++
          circuit.drivers.toList.drop index).filter (·.entity = entity) := by
        rw [List.take_append_drop]
    _ = (circuit.drivers.toList.take index).filter (·.entity = entity) ++ [driver] := by
        rw [List.drop_eq_getElem_cons inRange, isDriver, List.filter_append,
          List.filter_cons_of_pos (by simp [latest.entity_eq]), after]

/-- A constant with a value slot puts out what its latest driver gives. -/
theorem count_nextOutput
    (latest : circuit.Latest entity index driver)
    {initial : Int32}
    (body : (board.entity entity).body = .ofCount initial)
    (drivesValue : driver.signal = .value)
    (slot : driver.slot = slot? (board.entity entity).body driver.signal) :
    Frame.count (circuit.nextOutput board entity) .value = driver.source driver.calls := by
  obtain ⟨earlier, drivers⟩ := latest.exists_filter_eq
  rw [drivesValue, body] at slot
  have target : driver.target [⟨.value, initial, 1⟩] = .value := by
    rw [Driver.target, slot]
    rfl
  rw [nextOutput, body]
  simp only [Body.ofCount, Body.ofFilters, drivers, constantOutput, if_true, List.foldl_append,
    List.foldl_cons, List.foldl_nil, Driver.drive, target, Frame.count_assign,
    if_true]

/-- A new driver is the latest one of its constant. -/
theorem drive_self
    (circuit : Circuit)
    (board : Board)
    (entity : Nat)
    (signal : Signal)
    (source : Nat → Int32) :
    ∃ driver,
      (circuit.drive board entity signal source).Latest entity circuit.drivers.size driver := by
  refine ⟨⟨entity, slot? (board.entity entity).body signal, signal, source, 0⟩,
    by simp [Circuit.drive], rfl, ?_⟩
  intro other later beyond found
  have inRange := (Array.getElem?_eq_some_iff.mp found).1
  simp only [Circuit.drive, Array.size_push] at inRange
  omega

theorem drive
    (latest : circuit.Latest entity index driver)
    (board : Board)
    {other : Nat}
    (different : other ≠ entity)
    (signal : Signal)
    (source : Nat → Int32) :
    (circuit.drive board other signal source).Latest entity index driver where
  found := by
    have inRange := (Array.getElem?_eq_some_iff.mp latest.found).1
    simp [Circuit.drive, Array.getElem?_push, Nat.ne_of_lt inRange, latest.found]
  entity_eq := latest.entity_eq
  last beyond found := by
    simp only [Circuit.drive, Array.getElem?_push] at found
    split at found
    · cases found
      exact different
    · exact latest.last beyond found

theorem change
    (latest : circuit.Latest entity index driver)
    (place : Nat)
    (source : Nat → Int32) :
    ({ circuit with drivers := circuit.drivers.modify place ({ · with source := source }) } :
      Circuit).Latest entity index
        (if place = index then { driver with source := source } else driver) where
  found := by
    simp only [Array.getElem?_modify, latest.found]
    split
    · rfl
    · rfl
  entity_eq := by
    split
    · exact latest.entity_eq
    · exact latest.entity_eq
  last beyond found := by
    simp only [Array.getElem?_modify] at found
    split at found
    · obtain ⟨before, atPlace, rfl⟩ := Option.map_eq_some_iff.mp found
      have different := latest.last beyond atPlace
      exact different
    · exact latest.last beyond found

theorem step
    (latest : circuit.Latest entity index driver)
    (board : Board) :
    ∃ next, next.source = driver.source ∧ (circuit.step board).Latest entity index next := by
  refine ⟨if circuit.isAsked board driver then { driver with calls := driver.calls + 1 } else driver,
    by split <;> rfl, ?_, ?_, ?_⟩
  · simp [Circuit.step, latest.found]
  · split <;> exact latest.entity_eq
  · intro other later beyond found
    simp only [Circuit.step, Array.getElem?_map] at found
    obtain ⟨before, atPlace, rfl⟩ := Option.map_eq_some_iff.mp found
    have different := latest.last beyond atPlace
    split <;> exact different

end Latest

namespace Holds

variable {value : Int32}

theorem run
    (holds : circuit.Holds entity value)
    (board : Board)
    (count : Nat) :
    (circuit.run board count).Holds entity value := by
  induction count with
  | zero =>
      exact holds
  | succ count inductionHypothesis =>
      obtain ⟨index, driver, latest, isConstant⟩ := inductionHypothesis
      obtain ⟨next, sameSource, latestNext⟩ := latest.step board
      rw [run_succ]
      exact ⟨index, next, latestNext, sameSource.trans isConstant⟩

/-- A constant that holds a value puts it out from the next step on. -/
theorem count_nextOutput
    (holds : circuit.Holds entity value)
    {MayDrive : Nat → Signal → Prop}
    (reached : circuit.Reached board MayDrive)
    (onlyValue : ∀ signal, MayDrive entity signal → signal = .value)
    {initial : Int32}
    (body : (board.entity entity).body = .ofCount initial) :
    Frame.count (circuit.nextOutput board entity) .value = value := by
  obtain ⟨index, driver, latest, isConstant⟩ := holds
  obtain ⟨allowed, slot⟩ :=
    reached.driven driver (Array.mem_toList_iff.mpr (Array.mem_of_getElem? latest.found))
  rw [latest.entity_eq] at allowed slot
  rw [latest.count_nextOutput body (onlyValue _ allowed) slot, isConstant]

end Holds

end CircuitNetwork.Circuit
