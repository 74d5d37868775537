import CircuitNetwork.Circuit
import CircuitNetwork.Proofs.Signal.Frame

namespace CircuitNetwork

/-!
# Steps of a simulation

However the members are shared among workers, a step gives each of them the
output that it computes from the state before the step.  All outputs are proper
frames.
-/

namespace Circuit

/-! ## The indices that a step updates -/

theorem share_pos
    {count : Nat}
    (someIndex : 0 < count)
    (workers : Nat) :
    0 < share count workers := by
  unfold share
  split
  · exact Nat.succ_pos _
  · rename_i enough
    by_contra noShare
    rw [Nat.eq_zero_of_not_pos noShare, Nat.zero_mul] at enough
    exact enough someIndex

/-- The index lies in the range of the worker whose share it falls into. -/
theorem mem_ranges_of_lt
    {count index : Nat}
    (bounded : index < count)
    (workers : Nat) :
    ∃ range ∈ ranges count workers, range.1 ≤ index ∧ index < range.2 := by
  have positive := share_pos (Nat.zero_lt_of_lt bounded) workers
  refine ⟨_, List.mem_map.mpr ⟨index / share count workers, ?_, rfl⟩, ?_, ?_⟩
  · rw [List.mem_range, Nat.lt_div_iff_mul_lt positive]
    have below := Nat.div_mul_le_self index (share count workers)
    omega
  · exact Nat.div_mul_le_self index (share count workers)
  · have above := Nat.lt_mul_div_succ index positive
    rw [Nat.mul_comm] at above
    exact Nat.lt_min.mpr ⟨above, bounded⟩

theorem mem_schedule_of_lt
    {count index : Nat}
    (bounded : index < count)
    (workers : Int) :
    index ∈ schedule count workers := by
  unfold schedule
  split
  · exact List.mem_range.mpr bounded
  · obtain ⟨range, member, atLeast, below⟩ :=
      mem_ranges_of_lt bounded workers.toNat
    refine List.mem_flatMap.mpr ⟨range, member, List.mem_map.mpr ⟨index - range.1, ?_, ?_⟩⟩
    · exact List.mem_range.mpr (by omega)
    · omega

/-! ## The outputs after a step -/

/-- Updating the members with some indices writes the next output of each of them. -/
theorem getElem?_foldl_update
    (circuit : Circuit)
    (board : Board)
    (indices : List Nat)
    (frames : Array Frame)
    (sized : frames.size = circuit.members.length)
    (index : Nat) :
    (indices.foldl (circuit.update board) frames)[index]? =
      if index ∈ indices then
        circuit.members[index]?.map (circuit.nextOutput board)
      else
        frames[index]? := by
  induction indices generalizing frames with
  | nil =>
      simp
  | cons first rest inductionHypothesis =>
      have updateSized : (circuit.update board frames first).size = circuit.members.length := by
        unfold update
        split <;> simp [sized]
      rw [List.foldl_cons, inductionHypothesis _ updateSized]
      by_cases later : index ∈ rest
      · simp [later]
      · by_cases now : index = first
        · subst now
          unfold update
          cases found : circuit.members[index]? with
          | none =>
              have outside := List.getElem?_eq_none_iff.mp found
              simp [later, sized, outside]
          | some id =>
              have inside := (List.getElem?_eq_some_iff.mp found).1
              simp [later, sized, inside]
        · have untouched : (circuit.update board frames first)[index]? = frames[index]? := by
            unfold update
            split
            · rw [Array.getElem?_setIfInBounds_ne (Ne.symm now)]
            · rfl
          simp [later, now, untouched]

/-- A circuit has one frame for every member, and all of them are proper. -/
structure Sound (circuit : Circuit) : Prop where
  sized : circuit.frames.size = circuit.members.length
  proper : ∀ frame ∈ circuit.frames, Frame.Proper frame

@[simp] theorem members_step
    (circuit : Circuit)
    (board : Board) :
    (circuit.step board).members = circuit.members := by
  rfl

theorem getElem?_frames_step
    {circuit : Circuit}
    (sized : circuit.frames.size = circuit.members.length)
    (board : Board)
    (index : Nat) :
    (circuit.step board).frames[index]? =
      circuit.members[index]?.map (circuit.nextOutput board) := by
  simp only [step]
  rw [getElem?_foldl_update circuit board _ _ sized]
  split
  · rfl
  · rename_i unscheduled
    have outside : circuit.members.length ≤ index := by
      by_contra inside
      exact unscheduled (mem_schedule_of_lt (by omega) circuit.workers)
    rw [List.getElem?_eq_none outside, Array.getElem?_eq_none (by omega)]
    rfl

/-- After a step every member puts out what it computed from the state before. -/
theorem output_step
    {circuit : Circuit}
    (sized : circuit.frames.size = circuit.members.length)
    (board : Board)
    {id : Nat}
    (member : id ∈ circuit.members) :
    (circuit.step board).output id = circuit.nextOutput board id := by
  unfold output
  rw [members_step]
  cases found : circuit.members.findIdx? (· = id) with
  | none =>
      rw [List.findIdx?_eq_none_iff] at found
      have missing := found id member
      simp at missing
  | some index =>
      obtain ⟨bound, atIndex, -⟩ := List.findIdx?_eq_some_iff_getElem.mp found
      simp only [decide_eq_true_eq] at atIndex
      simp only [Array.getD_eq_getD_getElem?]
      rw [getElem?_frames_step sized]
      simp [bound, atIndex]

theorem output_eq_empty
    {circuit : Circuit}
    {id : Nat}
    (absent : id ∉ circuit.members) :
    circuit.output id = SignalMap.empty := by
  unfold output
  have missing : circuit.members.findIdx? (· = id) = none := by
    rw [List.findIdx?_eq_none_iff]
    intro other member
    simp only [decide_eq_false_iff_not]
    rintro rfl
    exact absent member
  rw [missing]

theorem Sound.proper_output
    {circuit : Circuit}
    (sound : circuit.Sound)
    (id : Nat) :
    Frame.Proper (circuit.output id) := by
  unfold output
  split
  · rename_i index found
    rw [Array.getD_eq_getD_getElem?]
    cases atIndex : circuit.frames[index]? with
    | none =>
        exact Frame.proper_empty
    | some frame =>
        exact sound.proper frame (Array.mem_of_getElem? atIndex)
  · exact Frame.proper_empty

/-! ## Every output is proper -/

theorem proper_constantOutput
    (drivers : List Driver)
    (isOn : Bool)
    (filters : List Filter) :
    Frame.Proper (constantOutput drivers isOn filters) := by
  have offered : ∀ (slots : List Filter) (frame : Frame), frame.Proper →
      Frame.Proper
        (slots.foldl (fun frame filter => Frame.offer frame filter.signal filter.count) frame) := by
    intro slots
    induction slots with
    | nil =>
        exact fun frame proper => proper
    | cons slot rest inductionHypothesis =>
        exact fun frame proper => inductionHypothesis _ (proper.offer slot.signal slot.count)
  have driven : ∀ (sources : List Driver) (frame : Frame), frame.Proper →
      Frame.Proper (sources.foldl (Driver.drive filters) frame) := by
    intro sources
    induction sources with
    | nil =>
        exact fun frame proper => proper
    | cons source rest inductionHypothesis =>
        exact fun frame proper => inductionHypothesis _ (proper.assign _ _)
  unfold constantOutput
  split
  · exact driven drivers _ (offered filters _ Frame.proper_empty)
  · exact Frame.proper_empty

theorem proper_nextOutput
    (circuit : Circuit)
    (board : Board)
    (id : Nat) :
    Frame.Proper (circuit.nextOutput board id) := by
  unfold nextOutput
  split
  · exact proper_constantOutput _ _ _
  · unfold deciderOutput
    split
    · exact Frame.proper_single _ _
    · exact Frame.proper_empty
  · exact Frame.proper_single _ _
  · exact Frame.proper_empty

/-- A step leaves one frame for every member. -/
theorem size_frames_step
    {circuit : Circuit}
    (sized : circuit.frames.size = circuit.members.length)
    (board : Board) :
    (circuit.step board).frames.size = circuit.members.length := by
  have frames := getElem?_frames_step sized board
  apply Nat.le_antisymm
  · by_contra tooMany
    have found := frames circuit.members.length
    rw [List.getElem?_eq_none (Nat.le_refl _), Option.map_none, Array.getElem?_eq_none_iff] at found
    exact tooMany found
  · by_contra tooFew
    have found := frames (circuit.step board).frames.size
    rw [Array.getElem?_eq_none (Nat.le_refl _), eq_comm, Option.map_eq_none_iff,
      List.getElem?_eq_none_iff] at found
    exact tooFew found

theorem Sound.step
    {circuit : Circuit}
    (sound : circuit.Sound)
    (board : Board) :
    (circuit.step board).Sound := by
  refine ⟨size_frames_step sound.sized board, ?_⟩
  intro frame member
  obtain ⟨index, found⟩ := Array.getElem?_of_mem member
  rw [getElem?_frames_step sound.sized, Option.map_eq_some_iff] at found
  obtain ⟨id, -, rfl⟩ := found
  exact proper_nextOutput circuit board id

/-! ## Runs -/

@[simp] theorem run_zero
    (circuit : Circuit)
    (board : Board) :
    circuit.run board 0 = circuit := by
  rfl

/-- A run ends with a step. -/
theorem run_succ
    (circuit : Circuit)
    (board : Board)
    (count : Nat) :
    circuit.run board (count + 1) = (circuit.run board count).step board := by
  induction count generalizing circuit with
  | zero =>
      rfl
  | succ count inductionHypothesis =>
      exact inductionHypothesis (circuit.step board)

@[simp] theorem members_run
    (circuit : Circuit)
    (board : Board)
    (count : Nat) :
    (circuit.run board count).members = circuit.members := by
  induction count with
  | zero =>
      rfl
  | succ count inductionHypothesis =>
      rw [run_succ, members_step, inductionHypothesis]

theorem size_frames_run
    {circuit : Circuit}
    (sized : circuit.frames.size = circuit.members.length)
    (board : Board)
    (count : Nat) :
    (circuit.run board count).frames.size = circuit.members.length := by
  induction count with
  | zero =>
      exact sized
  | succ count inductionHypothesis =>
      rw [run_succ, size_frames_step (by rw [inductionHypothesis, members_run]), members_run]

theorem Sound.run
    {circuit : Circuit}
    (sound : circuit.Sound)
    (board : Board)
    (count : Nat) :
    (circuit.run board count).Sound := by
  induction count with
  | zero =>
      exact sound
  | succ count inductionHypothesis =>
      rw [run_succ]
      exact inductionHypothesis.step board

/-- After a run and one more step, every member puts out what it computed from the end of the run. -/
theorem output_run_succ
    {circuit : Circuit}
    (sound : circuit.Sound)
    (board : Board)
    (count : Nat)
    {id : Nat}
    (member : id ∈ circuit.members) :
    (circuit.run board (count + 1)).output id =
      (circuit.run board count).nextOutput board id := by
  rw [run_succ]
  exact output_step (sound.run board count).sized board (by simpa using member)

end Circuit

end CircuitNetwork
