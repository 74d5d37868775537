import CircuitNetwork.Proofs.Circuit.Start

namespace CircuitNetwork

/-!
# Circuits that put out their own signals only

If drivers follow the slots of constants, then no member ever puts out a signal
that is not among its outputs.
-/

namespace Driver

/-- A driver of a constant that follows one of the slots. -/
def Slotted (board : Board) (driver : Driver) : Prop :=
  ∀ isOn filters, (board.entity driver.entity).body = .constant isOn filters →
    ∃ filter ∈ filters, driver.slot.bind (filters[·]?) = some filter

theorem target_eq
    {driver : Driver}
    {filters : List Filter}
    {filter : Filter}
    (found : driver.slot.bind (filters[·]?) = some filter) :
    driver.target filters = filter.signal := by
  rw [target, found]

end Driver

namespace Circuit

/-- A signal of a constant has a slot. -/
theorem exists_slot
    {filters : List Filter}
    {signal : Signal}
    (isSlot : signal ∈ filters.map (·.signal))
    (isOn : Bool) :
    ∃ filter ∈ filters, (slot? (.constant isOn filters) signal).bind (filters[·]?) = some filter := by
  obtain ⟨filter, isFilter, isSignal⟩ := List.mem_map.mp isSlot
  cases found : filters.findIdx? (·.signal = signal) with
  | none =>
      have missing := List.findIdx?_eq_none_iff.mp found filter isFilter
      simp [isSignal] at missing
  | some index =>
      obtain ⟨inRange, -⟩ := List.findIdx?_eq_some_iff_getElem.mp found
      refine ⟨filters[index], List.getElem_mem inRange, ?_⟩
      simp [slot?, found, inRange]

/-- All members put out their own signals only, and drivers follow slots. -/
structure Regular (board : Board) (circuit : Circuit) : Prop where
  sound : circuit.Sound
  slotted : ∀ driver ∈ circuit.drivers.toList, driver.Slotted board
  within : ∀ id signal, signal ∉ (board.entity id).body.outputs →
    Frame.count (circuit.output id) signal = 0

theorem count_constantOutput_eq_zero
    {drivers : List Driver}
    {filters : List Filter}
    (slotted : ∀ driver ∈ drivers, ∃ filter ∈ filters,
      driver.slot.bind (filters[·]?) = some filter)
    (isOn : Bool)
    {signal : Signal}
    (absent : signal ∉ filters.map (·.signal)) :
    Frame.count (constantOutput drivers isOn filters) signal = 0 := by
  have offered : ∀ slots ⊆ filters, ∀ frame : Frame, frame.count signal = 0 →
      Frame.count (slots.foldl (fun frame filter =>
        Frame.offer frame filter.signal filter.count) frame) signal = 0 := by
    intro slots
    induction slots with
    | nil => exact fun _ frame silent => silent
    | cons slot rest inductionHypothesis =>
        intro subset frame silent
        refine inductionHypothesis (fun _ isSlot => subset (List.mem_cons_of_mem _ isSlot)) _ ?_
        have different : signal ≠ slot.signal := by
          rintro rfl
          exact absent (List.mem_map_of_mem (subset List.mem_cons_self))
        simp [different, silent]
  have driven : ∀ sources ⊆ drivers, ∀ frame : Frame, frame.count signal = 0 →
      Frame.count (sources.foldl (Driver.drive filters) frame) signal = 0 := by
    intro sources
    induction sources with
    | nil => exact fun _ frame silent => silent
    | cons source rest inductionHypothesis =>
        intro subset frame silent
        refine inductionHypothesis (fun _ isSource => subset (List.mem_cons_of_mem _ isSource)) _ ?_
        obtain ⟨filter, isFilter, found⟩ := slotted source (subset List.mem_cons_self)
        have different : signal ≠ filter.signal := by
          rintro rfl
          exact absent (List.mem_map_of_mem isFilter)
        simp [Driver.drive, Driver.target_eq found, different, silent]
  unfold constantOutput
  split
  · exact driven drivers (List.Subset.refl _) _
      (offered filters (List.Subset.refl _) _ (Frame.count_empty signal))
  · exact Frame.count_empty signal

/-- The drivers of a constant follow its slots. -/
theorem slotted_filter
    {board : Board}
    {drivers : List Driver}
    (slotted : ∀ driver ∈ drivers, driver.Slotted board)
    {id : Nat}
    {isOn : Bool}
    {filters : List Filter}
    (body : (board.entity id).body = .constant isOn filters) :
    ∀ driver ∈ drivers.filter (·.entity = id),
      ∃ filter ∈ filters, driver.slot.bind (filters[·]?) = some filter := by
  intro driver isDriver
  simp only [List.mem_filter, decide_eq_true_eq] at isDriver
  exact slotted driver isDriver.1 isOn filters (by rw [isDriver.2, body])

theorem Regular.count_nextOutput_eq_zero
    {board : Board}
    {circuit : Circuit}
    (regular : circuit.Regular board)
    {id : Nat}
    {signal : Signal}
    (absent : signal ∉ (board.entity id).body.outputs) :
    Frame.count (circuit.nextOutput board id) signal = 0 := by
  unfold nextOutput
  cases body : (board.entity id).body with
  | constant isOn filters =>
      rw [body] at absent
      exact count_constantOutput_eq_zero (slotted_filter regular.slotted body) isOn absent
  | decider condition =>
      simp only [body, Body.outputs, List.mem_singleton] at absent
      simp only [deciderOutput]
      split
      · rw [Frame.count_single, if_neg absent]
      · exact Frame.count_empty signal
  | arithmetic condition =>
      simp only [body, Body.outputs, List.mem_singleton] at absent
      simp only [arithmeticOutput]
      rw [Frame.count_single, if_neg absent]
  | fixture => exact Frame.count_empty signal

theorem Regular.step
    {board : Board}
    {circuit : Circuit}
    (regular : circuit.Regular board) :
    (circuit.step board).Regular board where
  sound := regular.sound.step board
  slotted := by
    intro driver isDriver
    simp only [Circuit.step, Array.toList_map, List.mem_map] at isDriver
    obtain ⟨before, isBefore, rfl⟩ := isDriver
    have slotted := regular.slotted before isBefore
    split
    · exact slotted
    · exact slotted
  within := by
    intro id signal absent
    by_cases member : id ∈ circuit.members
    · rw [output_step regular.sound.sized board member]
      exact regular.count_nextOutput_eq_zero absent
    · rw [output_eq_empty (by simpa using member)]
      exact Frame.count_empty signal

theorem Regular.run
    {board : Board}
    {circuit : Circuit}
    (regular : circuit.Regular board)
    (count : Nat) :
    (circuit.run board count).Regular board := by
  induction count with
  | zero =>
      exact regular
  | succ count inductionHypothesis =>
      rw [run_succ]
      exact inductionHypothesis.step

end Circuit

end CircuitNetwork
