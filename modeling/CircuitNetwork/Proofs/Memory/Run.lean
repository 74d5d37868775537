import CircuitNetwork.Proofs.Circuit.Gates
import CircuitNetwork.Proofs.Memory.Signals

namespace CircuitNetwork

/-!
# Runs of memories

What the entities of a memory put out, step by step, when its inputs are driven
with arbitrary values.
-/

namespace Role

/-- The constants of the primary inputs of a memory. -/
def inputs (geometry : Geometry) : List Nat :=
  (List.range (4 + geometry.readPorts)).map fun index => (input index).place geometry

/-- The signal that the entity of a role puts out. -/
def carrier : Role → Signal
  | pulse | select _ | decode _ => .control
  | _ => .value

theorem mem_inputs_iff
    {geometry : Geometry}
    {role : Role}
    (present : role.In geometry) :
    role.place geometry ∈ inputs geometry ↔ ∃ index, role = input index := by
  simp only [inputs, List.mem_map, List.mem_range]
  constructor
  · rintro ⟨index, inRange, same⟩
    refine ⟨index, ?_⟩
    rw [← ofPlace_place present, ← same]
    exact ofPlace_place (show (input index).In geometry from inRange)
  · rintro ⟨index, rfl⟩
    exact ⟨index, present, rfl⟩

theorem nodup_inputs
    (geometry : Geometry) :
    (inputs geometry).Nodup := by
  refine List.nodup_range.map fun first second same => ?_
  simp only [place] at same
  omega

end Role

open Role

/-- A memory on a board, and the values that are driven on the constants of its inputs. -/
structure MemoryRun where
  geometry : Geometry
  board : Board
  members : List Nat
  workers : Int
  values : Nat → Nat → Int32
  realized : Realized geometry board members

namespace MemoryRun

variable (run : MemoryRun)

/-- The simulation of the memory after some steps. -/
def after (count : Nat) : Circuit :=
  ((Circuit.fresh run.members run.workers).driveAll run.board (inputs run.geometry) .value
    run.values).run run.board count

/-- What the entity of a role puts out on a signal after some steps. -/
def shown (role : Role) (signal : Signal) (count : Nat) : Int32 :=
  Frame.count ((run.after count).output (role.place run.geometry)) signal

theorem sound_after
    (count : Nat) :
    (run.after count).Sound :=
  ((Circuit.sound_fresh run.members run.workers).driveAll ..).run run.board count

theorem members_after
    (count : Nat) :
    (run.after count).members = run.members := by
  simp [after, Circuit.fresh]

theorem shown_zero
    (role : Role)
    (signal : Signal) :
    run.shown role signal 0 = 0 := by
  rw [shown, after, Circuit.run_zero, Circuit.output_driveAll, Circuit.output_fresh]
  rfl

theorem shown_succ
    {role : Role}
    (present : role.In run.geometry)
    (signal : Signal)
    (count : Nat) :
    run.shown role signal (count + 1) =
      Frame.count ((run.after count).nextOutput run.board (role.place run.geometry)) signal := by
  have member : role.place run.geometry ∈ run.members :=
    (run.realized.member_iff _).mpr (place_lt_total present)
  rw [shown, after, Circuit.output_run_succ
    ((Circuit.sound_fresh run.members run.workers).driveAll ..)]
  · rfl
  · simpa [Circuit.fresh] using member

/-- The value at an endpoint is the sum of what the producers of its network show. -/
theorem value_after
    (color : Color)
    {role : Role}
    (present : role.In run.geometry)
    (port : Port)
    (signal : Signal)
    (count : Nat) :
    (run.after count).value run.board (role.point run.geometry port) color signal =
      ((producers run.geometry color (net run.geometry color (role, port))).map fun source =>
        run.shown source signal count).sum := by
  have realized : Realized run.geometry run.board (run.after count).members := by
    rw [run.members_after]
    exact run.realized
  exact realized.value_eq (run.sound_after count) color present port signal

/-- What the input of an entity reads, as the sum over its red and its green network. -/
theorem level_after
    (role : Role)
    (present : role.In run.geometry)
    (signal : Signal)
    (count : Nat) :
    (run.after count).level run.board (role.place run.geometry) signal =
      ((producers run.geometry .red (redNet (role, .one))).map fun source =>
        run.shown source signal count).sum +
      ((producers run.geometry .green (greenNet run.geometry (role, .one))).map fun source =>
        run.shown source signal count).sum := by
  have red := run.value_after .red present .one signal count
  have green := run.value_after .green present .one signal count
  simp only [point, net] at red green
  rw [Circuit.level, red, green]

/-! ## The inputs -/

/-- An input shows the driven values, one step later. -/
theorem shown_input
    {index : Nat}
    (inRange : index < 4 + run.geometry.readPorts)
    (signal : Signal)
    (count : Nat) :
    run.shown (input index) signal (count + 1) =
      if signal = .value then run.values ((input index).place run.geometry) count else 0 := by
  have present : (input index).In run.geometry := inRange
  have member : (input index).place run.geometry ∈ run.members :=
    (run.realized.member_iff _).mpr (place_lt_total present)
  have driven : (input index).place run.geometry ∈ inputs run.geometry :=
    (mem_inputs_iff present).mpr ⟨index, rfl⟩
  rw [run.shown_succ present]
  exact Circuit.count_driven rfl (nodup_inputs run.geometry) member driven
    (run.realized.body_eq _ present) run.values count signal

/-- Nothing is driven at the other entities. -/
theorem shown_terminal
    {port : Nat}
    (inRange : port < run.geometry.readPorts)
    (signal : Signal)
    (count : Nat) :
    run.shown (terminal port) signal count = 0 := by
  have present : (terminal port).In run.geometry := inRange
  cases count with
  | zero =>
      exact run.shown_zero _ _
  | succ count =>
      have undriven : (terminal port).place run.geometry ∉ inputs run.geometry := by
        rw [mem_inputs_iff present]
        simp
      have drivers := (Circuit.fresh run.members run.workers).filter_drivers_run rfl run.board
        (nodup_inputs run.geometry) .value run.values count ((terminal port).place run.geometry)
      rw [if_neg undriven] at drivers
      rw [run.shown_succ present, Circuit.nextOutput, run.realized.body_eq _ present, after]
      simp only [Role.body, Body.ofFilters, drivers]
      rfl

/-! ## The other entities -/

/-- What a selecting entity shows. -/
theorem shown_selector
    (role : Role)
    (present : role.In run.geometry)
    {comparator : Comparator}
    {first output : Signal}
    {constant : Int32}
    {copyCount : Bool}
    (body : role.body run.geometry = selector comparator first constant copyCount output)
    (signal : Signal)
    (count : Nat) :
    run.shown role signal (count + 1) =
      if signal = output ∧
          comparator.holds ((run.after count).level run.board (role.place run.geometry) first)
            constant then
        (if copyCount then (run.after count).level run.board (role.place run.geometry) output
          else 1)
      else 0 := by
  rw [run.shown_succ present]
  exact Circuit.count_selector (run.sound_after count)
    ((run.realized.body_eq _ present).trans body) signal

theorem shown_decode
    {port : Nat}
    (inRange : port < run.geometry.readPorts)
    (signal : Signal)
    (count : Nat) :
    run.shown (decode port) signal (count + 1) =
      if signal = .control then
        (run.after count).level run.board ((decode port).place run.geometry) .value
      else 0 := by
  have present : (decode port).In run.geometry := inRange
  rw [run.shown_succ present]
  exact Circuit.count_transformer (run.sound_after count) (run.realized.body_eq _ present) signal

/-- Every entity is silent on all signals but its own. -/
theorem shown_other
    (role : Role)
    (present : role.In run.geometry)
    (signal : Signal)
    (other : signal ≠ role.carrier)
    (count : Nat) :
    run.shown role signal count = 0 := by
  cases count with
  | zero =>
      exact run.shown_zero _ _
  | succ count =>
      cases role with
      | input index => exact (run.shown_input present _ _).trans (if_neg other)
      | terminal port => exact run.shown_terminal present signal _
      | decode port => exact (run.shown_decode present _ _).trans (if_neg other)
      | _ => rw [run.shown_selector _ present rfl, if_neg (fun passes => other passes.1)]

/-- The pulse is one after clock and enable added up to two. -/
theorem shown_pulse
    (count : Nat) :
    run.shown pulse .control (count + 1) =
      if run.shown (input 0) .value count + run.shown (input 3) .value count = 2 then 1 else 0 := by
  rw [run.shown_selector pulse trivial rfl, run.level_after pulse trivial]
  simp [producers, redProducers, greenProducers, redNet, greenNet, Comparator.holds]

/-- The pulse reaches the row that is addressed. -/
theorem shown_select
    {row : Nat}
    (inRange : row < run.geometry.size)
    (count : Nat) :
    run.shown (select row) .control (count + 1) =
      if run.shown (input 1) .value count = Bank.rowAddress run.geometry row then
        run.shown pulse .control count
      else 0 := by
  have present : (select row).In run.geometry := inRange
  have noValue := run.shown_other pulse trivial .value Signal.value_ne_control count
  have noControl := run.shown_other (input 1) (show 1 < _ by omega) .control
    Signal.value_ne_control.symm count
  rw [run.shown_selector _ present rfl, run.level_after _ present, run.level_after _ present]
  simp [producers, redProducers, greenProducers, redNet, greenNet, Comparator.holds, noValue,
    noControl]

/-- The first decider of a latch puts the data out while the pulse is there. -/
theorem shown_latch
    {row : Nat}
    (inRange : row < run.geometry.size)
    (count : Nat) :
    run.shown (latch row) .value (count + 1) =
      if run.shown (select row) .control count = 1 then run.shown (input 2) .value count
      else 0 := by
  have present : (latch row).In run.geometry := inRange
  have noValue := run.shown_other (select row) inRange .value Signal.value_ne_control count
  have noControl := run.shown_other (input 2) (show 2 < _ by omega) .control
    Signal.value_ne_control.symm count
  rw [run.shown_selector _ present rfl, run.level_after _ present, run.level_after _ present]
  simp [producers, redProducers, greenProducers, redNet, greenNet, Comparator.holds, noValue,
    noControl]

/-- The value of the latch of a row. -/
def latched (row count : Nat) : Int32 :=
  run.shown (latch row) .value count + run.shown (hold row) .value count

theorem control_latched
    {row : Nat}
    (inRange : row < run.geometry.size)
    (count : Nat) :
    run.shown (latch row) .control count = 0 ∧ run.shown (hold row) .control count = 0 :=
  ⟨run.shown_other (latch row) inRange .control Signal.value_ne_control.symm count,
    run.shown_other (hold row) inRange .control Signal.value_ne_control.symm count⟩

/-- The second decider of a latch repeats its value while the pulse is not there. -/
theorem shown_hold
    {row : Nat}
    (inRange : row < run.geometry.size)
    (count : Nat) :
    run.shown (hold row) .value (count + 1) =
      if run.shown (select row) .control count = 0 then run.latched row count else 0 := by
  have present : (hold row).In run.geometry := inRange
  have noValue := run.shown_other (select row) inRange .value Signal.value_ne_control count
  have noControl := run.control_latched inRange count
  rw [run.shown_selector _ present rfl, run.level_after _ present, run.level_after _ present]
  simp [producers, redProducers, greenProducers, redNet, greenNet, Comparator.holds, latched,
    noValue, noControl]

/-- A reader shows the value of its row if the decoded address is that of the row. -/
theorem shown_reader
    {port row : Nat}
    (portInRange : port < run.geometry.readPorts)
    (inRange : row < run.geometry.size)
    (count : Nat) :
    run.shown (reader port row) .value (count + 2) =
      if run.shown (input (port + 4)) .value count = Bank.rowAddress run.geometry row then
        run.latched row (count + 1)
      else 0 := by
  have present : (reader port row).In run.geometry := ⟨portInRange, inRange⟩
  have decodes : (decode port).In run.geometry := portInRange
  have decoded : run.shown (decode port) .control (count + 1) =
      run.shown (input (port + 4)) .value count := by
    rw [run.shown_decode portInRange, run.level_after _ decodes]
    simp [producers, redProducers, greenProducers, redNet, greenNet]
  have noValue := run.shown_other (decode port) decodes .value Signal.value_ne_control (count + 1)
  have noControl := run.control_latched inRange (count + 1)
  rw [run.shown_selector _ present rfl, run.level_after _ present, run.level_after _ present]
  simp [producers, redProducers, greenProducers, redNet, greenNet, Comparator.holds, latched,
    noValue, noControl, decoded]

/-! ## Writing -/

theorem latched_zero
    (row : Nat) :
    run.latched row 0 = 0 := by
  simp [latched, shown_zero]

/-- One step of a latch. -/
theorem latched_succ
    {row : Nat}
    (inRange : row < run.geometry.size)
    (count : Nat) :
    run.latched row (count + 1) =
      if run.shown (select row) .control count = 1 then run.shown (input 2) .value count
      else if run.shown (select row) .control count = 0 then run.latched row count
      else 0 := by
  rw [latched, run.shown_latch inRange, run.shown_hold inRange]
  by_cases pulsed : run.shown (select row) .control count = 1
  · simp [pulsed]
  · simp [pulsed]

theorem latched_succ_of_idle
    {row : Nat}
    (inRange : row < run.geometry.size)
    {count : Nat}
    (idle : run.shown (select row) .control count = 0) :
    run.latched row (count + 1) = run.latched row count := by
  rw [run.latched_succ inRange, idle]
  rfl

/-- A latch holds zero until the first write can reach it. -/
theorem latched_eq_zero
    {row : Nat}
    (inRange : row < run.geometry.size)
    {count : Nat}
    (early : count ≤ 2) :
    run.latched row count = 0 := by
  have one : run.latched row 1 = 0 := by
    rw [run.latched_succ_of_idle inRange (run.shown_zero _ _), run.latched_zero]
  have idle : run.shown (select row) .control 1 = 0 := by
    rw [run.shown_select inRange, run.shown_zero, run.shown_zero]
    split <;> rfl
  have two : run.latched row 2 = 0 := by
    rw [run.latched_succ_of_idle inRange idle, one]
  match count, early with
  | 0, _ => exact run.latched_zero row
  | 1, _ => exact one
  | 2, _ => exact two

/-- What a latch holds: the written data if there was a pulse for its row, and else its value before. -/
theorem latched_add_three
    {row : Nat}
    (inRange : row < run.geometry.size)
    (count : Nat) :
    run.latched row (count + 3) =
      if run.shown (input 0) .value count + run.shown (input 3) .value count = 2 ∧
          run.shown (input 1) .value (count + 1) = Bank.rowAddress run.geometry row then
        run.shown (input 2) .value (count + 2)
      else run.latched row (count + 2) := by
  rw [run.latched_succ inRange, run.shown_select inRange, run.shown_pulse]
  by_cases addressed :
      run.shown (input 1) .value (count + 1) = Bank.rowAddress run.geometry row
  · by_cases pulsed : run.shown (input 0) .value count + run.shown (input 3) .value count = 2
    · simp [addressed, pulsed]
    · simp [addressed, pulsed]
  · simp [addressed]

/-- The networks at the output of a latch carry its value. -/
theorem value_latch
    {row : Nat}
    (inRange : row < run.geometry.size)
    (color : Color)
    (count : Nat) :
    (run.after count).value run.board ((latch row).point run.geometry .two) color .value =
      run.latched row count := by
  rw [run.value_after color (show (latch row).In run.geometry from inRange)]
  cases color <;> simp [producers, redProducers, greenProducers, net, redNet, greenNet, latched]

/-! ## Reading -/

/-- The networks of a read port carry the sum of what its readers show. -/
theorem value_reader
    {port row : Nat}
    (portInRange : port < run.geometry.readPorts)
    (inRange : row < run.geometry.size)
    {color : Color}
    (laid : net run.geometry color (reader port row, .two) ≠ .loose)
    (count : Nat) :
    (run.after count).value run.board ((reader port row).point run.geometry .two) color .value =
      ∑ row ∈ Finset.range run.geometry.size, run.shown (reader port row) .value count := by
  have present : (reader port row).In run.geometry := ⟨portInRange, inRange⟩
  have readers :
      (((List.range run.geometry.size).map (reader port)).map fun source =>
        run.shown source .value count).sum =
      ∑ row ∈ Finset.range run.geometry.size, run.shown (reader port row) .value count := by
    have rows : (List.range run.geometry.size).toFinset = Finset.range run.geometry.size := by
      ext row
      simp
    rw [List.map_map, ← rows, List.sum_toFinset _ List.nodup_range]
    rfl
  rw [run.value_after color present, ← readers]
  cases color with
  | red =>
      simp only [producers, redProducers, net, redNet, List.map_cons, List.sum_cons,
        run.shown_terminal portInRange, zero_add]
  | green =>
      have several : run.geometry.size ≠ 1 := by
        intro single
        simp [net, greenNet, single] at laid
      simp only [producers, greenProducers, net, greenNet, if_neg several]

/-- No two rows have the same address. -/
theorem row_eq_of_rowAddress_eq
    {geometry : Geometry}
    (fits : geometry.size < 0x80000000)
    {row other : Nat}
    (inRange : row < geometry.size)
    (otherInRange : other < geometry.size)
    (same : Bank.rowAddress geometry row = Bank.rowAddress geometry other) :
    row = other := by
  simp only [Bank.rowAddress] at same
  have bits := congrArg (fun value => value.toBitVec.toNat) same
  simp at bits
  omega

/-- A read port shows the latch of the row whose address was asked for. -/
theorem sum_readers_of_row
    (fits : run.geometry.size < 0x80000000)
    {port row : Nat}
    (portInRange : port < run.geometry.readPorts)
    (inRange : row < run.geometry.size)
    {count : Nat}
    (asked : run.shown (input (port + 4)) .value count = Bank.rowAddress run.geometry row) :
    ∑ row ∈ Finset.range run.geometry.size, run.shown (reader port row) .value (count + 2) =
      run.latched row (count + 1) := by
  rw [Finset.sum_eq_single row]
  · rw [run.shown_reader portInRange inRange, if_pos asked]
  · intro other otherListed different
    have otherInRange := Finset.mem_range.mp otherListed
    rw [run.shown_reader portInRange otherInRange, if_neg]
    intro otherAsked
    exact different (row_eq_of_rowAddress_eq fits otherInRange inRange
      (otherAsked.symm.trans asked))
  · intro outside
    exact absurd (Finset.mem_range.mpr inRange) outside

/-- A read port shows nothing if no row has the address that was asked for. -/
theorem sum_readers_of_no_row
    {port : Nat}
    (portInRange : port < run.geometry.readPorts)
    {count : Nat}
    (missed : ∀ row < run.geometry.size,
      run.shown (input (port + 4)) .value count ≠ Bank.rowAddress run.geometry row) :
    ∑ row ∈ Finset.range run.geometry.size, run.shown (reader port row) .value (count + 2) = 0 := by
  refine Finset.sum_eq_zero fun row listed => ?_
  have inRange := Finset.mem_range.mp listed
  rw [run.shown_reader portInRange inRange, if_neg (missed row inRange)]

end MemoryRun

end CircuitNetwork
