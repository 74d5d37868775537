import CircuitNetwork.Proofs.Circuit.Regular
import CircuitNetwork.Proofs.Circuit.Value
import CircuitNetwork.Proofs.Groups.Renaming
import Mathlib.Data.List.Forall2

namespace CircuitNetwork

/-!
# Simulation after renaming

When a signal was renamed in a group, a simulation goes on as it did before. All
counts are the same, except that those of the combinators whose output is in the
group are on the new signal.
-/

/-! ## Renaming a signal at some places only -/

/-- Put one signal in the place of another, where this applies. -/
def Signal.renameIf (applies : Bool) (old new signal : Signal) : Signal :=
  if applies then rename old new signal else signal

namespace Signal

variable {old new : Signal}

theorem renameIf_of_ne
    {signal : Signal}
    (different : signal ≠ old)
    (applies : Bool) :
    renameIf applies old new signal = signal := by
  simp [renameIf, rename, different]

/-- Signals other than the new one stay different. -/
theorem renameIf_inj
    {first second : Signal}
    (firstOther : first ≠ new)
    (secondOther : second ≠ new)
    (applies : Bool) :
    renameIf applies old new first = renameIf applies old new second ↔ first = second := by
  unfold renameIf rename
  grind

end Signal

namespace Body

theorem relabel_constant
    (old new : Signal)
    (reads puts isOn : Bool)
    (filters : List Filter) :
    (constant isOn filters).relabel old new reads puts =
      constant isOn (filters.map fun filter =>
        { filter with signal := Signal.renameIf puts old new filter.signal }) := by
  have renamed (filter : Filter) :
      (if filter.signal = old then { filter with signal := new } else filter) =
        { filter with signal := Signal.rename old new filter.signal } := by
    unfold Signal.rename
    split <;> rfl
  cases reads <;> cases puts <;>
    simp [relabel, renameOperands, renameOutputs, Signal.renameIf, renamed]

theorem relabel_decider
    (old new : Signal)
    (reads puts : Bool)
    (condition : Decider) :
    (decider condition).relabel old new reads puts =
      decider { condition with
        first := Signal.renameIf reads old new condition.first
        second := if reads then condition.second.rename old new else condition.second
        output := Signal.renameIf puts old new condition.output } := by
  cases reads <;> cases puts <;> rfl

theorem relabel_arithmetic
    (old new : Signal)
    (reads puts : Bool)
    (condition : Arithmetic) :
    (arithmetic condition).relabel old new reads puts =
      arithmetic { condition with
        first := Signal.renameIf reads old new condition.first
        second := if reads then condition.second.rename old new else condition.second
        output := Signal.renameIf puts old new condition.output } := by
  cases reads <;> cases puts <;> rfl

theorem relabel_fixture
    (old new : Signal)
    (reads puts : Bool)
    (name : String) :
    (fixture name).relabel old new reads puts = fixture name := by
  cases reads <;> cases puts <;> rfl

end Body

/-! ## Frames -/

namespace Frame

/-- A frame has the counts of another one, with each of the used signals renamed. -/
def Follows (Used : Signal → Prop) (target : Signal → Signal) (frame other : Frame) : Prop :=
  ∀ signal, Used signal → other.count (target signal) = frame.count signal

namespace Follows

variable {Used : Signal → Prop} {target : Signal → Signal} {frame other : Frame}

theorem empty : Follows Used target SignalMap.empty SignalMap.empty :=
  fun _ _ => rfl

theorem assign
    (follows : Follows Used target frame other)
    (injective : ∀ first second, Used first → Used second →
      (target first = target second ↔ first = second))
    {signal : Signal}
    (used : Used signal)
    (count : Int32) :
    Follows Used target (frame.assign signal count) (other.assign (target signal) count) := by
  intro asked askedUsed
  simp only [count_assign, injective asked signal askedUsed used, follows asked askedUsed]

theorem offer
    (follows : Follows Used target frame other)
    (injective : ∀ first second, Used first → Used second →
      (target first = target second ↔ first = second))
    {signal : Signal}
    (used : Used signal)
    (count : Int32) :
    Follows Used target (frame.offer signal count) (other.offer (target signal) count) := by
  intro asked askedUsed
  simp only [count_offer, injective asked signal askedUsed used, follows asked askedUsed]

end Follows

end Frame

/-! ## Drivers -/

namespace Driver

/-- Drivers of the same slot with the same values. -/
structure Alike (driver other : Driver) : Prop where
  entity_eq : other.entity = driver.entity
  slot_eq : other.slot = driver.slot
  source_eq : other.source = driver.source
  calls_eq : other.calls = driver.calls

end Driver

namespace Circuit

theorem alike_filter
    {drivers others : List Driver}
    (alike : List.Forall₂ Driver.Alike drivers others)
    (id : Nat) :
    List.Forall₂ Driver.Alike (drivers.filter (·.entity = id)) (others.filter (·.entity = id)) :=
  List.rel_filter (fun _ _ same => by simp only [same.entity_eq]) alike

/-! ## One renaming -/

/-- A renaming of a signal at closed endpoints to one that was not used. -/
structure Renames
    (entities : List Nat)
    (board other : Board)
    (old new : Signal)
    (points : List (Option Endpoint)) :
    Prop where
  tidy : board.Tidy
  relabeled : board.Relabeled other old new points
  closed : Closed board entities old points
  unused : board.Unused entities new

variable {entities : List Nat} {board other : Board} {old new : Signal}
  {points : List (Option Endpoint)} {circuit mirror : Circuit}

theorem Renames.ne_of_mem_outputs
    (renames : Renames entities board other old new points)
    {id : Nat}
    (listed : id ∈ entities)
    {signal : Signal}
    (puts : signal ∈ (board.entity id).body.outputs) :
    signal ≠ new := by
  rintro rfl
  exact (renames.unused id listed).2 puts

/-- A circuit on a board on which a signal was renamed has the same counts. -/
structure Mirrors
    (entities : List Nat)
    (board other : Board)
    (old new : Signal)
    (points : List (Option Endpoint))
    (circuit mirror : Circuit) :
    Prop where
  regular : circuit.Regular board
  regularMirror : mirror.Regular other
  members_eq : circuit.members = entities
  mirror_members_eq : mirror.members = entities
  alike : List.Forall₂ Driver.Alike circuit.drivers.toList mirror.drivers.toList
  follows : ∀ id, Frame.Follows (· ≠ new)
    (Signal.renameIf (some (board.output id) ∈ points) old new) (circuit.output id)
    (mirror.output id)

/-- What a member puts out, read where the renaming applies or not. -/
theorem Mirrors.count_output
    (renames : Renames entities board other old new points)
    (mirrors : Mirrors entities board other old new points circuit mirror)
    {id : Nat}
    (listed : id ∈ entities)
    {signal : Signal}
    (isOther : signal ≠ new)
    {applies : Bool}
    (agrees : signal = old → signal ∈ (board.entity id).body.outputs →
      (some (board.output id) ∈ points ↔ applies = true)) :
    Frame.count (mirror.output id) (Signal.renameIf applies old new signal) =
      Frame.count (circuit.output id) signal := by
  have follows := mirrors.follows id signal isOther
  by_cases isOld : signal = old
  · subst isOld
    by_cases puts : signal ∈ (board.entity id).body.outputs
    · have same : decide (some (board.output id) ∈ points) = applies := by
        rw [Bool.eq_iff_iff, decide_eq_true_iff]
        exact agrees rfl puts
      rw [← same]
      exact follows
    · -- Neither the old nor the new signal is put out, before and after.
      rw [mirrors.regular.within id signal puts]
      apply mirrors.regularMirror.within
      have newAbsent := (renames.unused id listed).2
      rw [renames.relabeled.outputs_eq]
      unfold Signal.renameIf Signal.rename
      split <;> split <;> grind
  · rw [Signal.renameIf_of_ne isOld] at follows ⊢
    exact follows

/-- The members that an endpoint gets its values from are the same. -/
theorem sources_eq_of_relabeled
    (renames : Renames entities board other old new points)
    (members_eq : mirror.members = circuit.members)
    (color : Color)
    (point : Endpoint) :
    mirror.sources other color point = circuit.sources board color point := by
  unfold sources
  rw [members_eq]
  congr 1
  funext id
  rw [renames.relabeled.output_eq, renames.relabeled.joined_iff]

/-- What a member reads at its input, where the renaming applies or not. -/
theorem Mirrors.count_input
    (renames : Renames entities board other old new points)
    (mirrors : Mirrors entities board other old new points circuit mirror)
    {id : Nat}
    {signal : Signal}
    (isOther : signal ≠ new)
    {applies : Bool}
    (agrees : signal = old → ∀ source ∈ entities,
      signal ∈ (board.entity source).body.outputs →
        board.Shares (board.output source) (board.input id) →
          (some (board.output source) ∈ points ↔ applies = true)) :
    Frame.count (mirror.input other (other.input id)) (Signal.renameIf applies old new signal) =
      Frame.count (circuit.input board (board.input id)) signal := by
  have membersEq : mirror.members = circuit.members :=
    mirrors.mirror_members_eq.trans mirrors.members_eq.symm
  have valueEq (color : Color) :
      mirror.value other (board.input id) color (Signal.renameIf applies old new signal) =
        circuit.value board (board.input id) color signal := by
    rw [value_eq_sum mirrors.regularMirror.sound (renames.relabeled.tidy renames.tidy),
      value_eq_sum mirrors.regular.sound renames.tidy, sources_eq_of_relabeled renames membersEq]
    apply Finset.sum_congr rfl
    intro source isSource
    simp only [sources, Finset.mem_filter, List.mem_toFinset, mirrors.members_eq] at isSource
    exact mirrors.count_output renames isSource.1 isOther fun isOld puts =>
      agrees isOld source isSource.1 puts ⟨color, isSource.2⟩
  rw [show other.input id = board.input id from rfl,
    Circuit.count_input mirrors.regularMirror.sound, Circuit.count_input mirrors.regular.sound,
    valueEq, valueEq]

/-- What a listed combinator reads as an operand. -/
theorem Mirrors.count_operand
    (renames : Renames entities board other old new points)
    (mirrors : Mirrors entities board other old new points circuit mirror)
    {id : Nat}
    (listed : id ∈ entities)
    {signal : Signal}
    (reads : signal ∈ (board.entity id).body.operands) :
    Frame.count (mirror.input other (other.input id))
        (Signal.renameIf (some (board.input id) ∈ points) old new signal) =
      Frame.count (circuit.input board (board.input id)) signal := by
  refine mirrors.count_input renames ?_ ?_
  · rintro rfl
    exact (renames.unused id listed).1 reads
  · intro isOld source isSource puts shares
    subst isOld
    rw [decide_eq_true_iff]
    exact renames.closed.reader source isSource id listed puts reads shares

theorem Mirrors.operands_eq
    (renames : Renames entities board other old new points)
    (mirrors : Mirrors entities board other old new points circuit mirror)
    {id : Nat}
    (listed : id ∈ entities)
    {first : Signal}
    {second : Operand}
    (operands : (board.entity id).body.operands = first :: second.signal?.toList) :
    Frame.count (mirror.input other (other.input id))
        (Signal.renameIf (some (board.input id) ∈ points) old new first) =
      Frame.count (circuit.input board (board.input id)) first ∧
    operandValue (mirror.input other (other.input id))
        (if some (board.input id) ∈ points then second.rename old new else second) =
      operandValue (circuit.input board (board.input id)) second := by
  refine ⟨mirrors.count_operand renames listed (by simp [operands]), ?_⟩
  cases second with
  | constant value =>
      split <;> rfl
  | signal read =>
      have counts := mirrors.count_operand renames listed
        (show read ∈ _ by simp [operands, Operand.signal?])
      unfold Signal.renameIf at counts
      split
      · rename_i isMember
        rw [decide_eq_true isMember, if_pos rfl] at counts
        exact counts
      · rename_i notMember
        rw [decide_eq_false notMember, if_neg Bool.false_ne_true] at counts
        exact counts

/-- What a listed decider passes through. -/
theorem Mirrors.count_passed
    (renames : Renames entities board other old new points)
    (mirrors : Mirrors entities board other old new points circuit mirror)
    {id : Nat}
    (listed : id ∈ entities)
    (passThrough : (board.entity id).body.passThrough = true)
    {signal : Signal}
    (puts : signal ∈ (board.entity id).body.outputs) :
    Frame.count (mirror.input other (other.input id))
        (Signal.renameIf (some (board.output id) ∈ points) old new signal) =
      Frame.count (circuit.input board (board.input id)) signal := by
  refine mirrors.count_input renames (renames.ne_of_mem_outputs listed puts) ?_
  intro isOld source isSource sourcePuts shares
  subst isOld
  rw [decide_eq_true_iff]
  exact renames.closed.through source isSource id listed sourcePuts puts passThrough shares

theorem follows_foldl_offer
    {filters : List Filter}
    (others : ∀ filter ∈ filters, filter.signal ≠ new)
    (applies : Bool)
    {frame renamed : Frame}
    (follows : Frame.Follows (· ≠ new) (Signal.renameIf applies old new) frame renamed) :
    Frame.Follows (· ≠ new) (Signal.renameIf applies old new)
      (filters.foldl (fun frame filter => Frame.offer frame filter.signal filter.count) frame)
      ((filters.map fun filter =>
        { filter with signal := Signal.renameIf applies old new filter.signal }).foldl
          (fun frame filter => Frame.offer frame filter.signal filter.count) renamed) := by
  induction filters generalizing frame renamed with
  | nil =>
      exact follows
  | cons filter rest inductionHypothesis =>
      rw [List.forall_mem_cons] at others
      exact inductionHypothesis others.2 (follows.offer
        (fun _ _ firstOther secondOther => Signal.renameIf_inj firstOther secondOther applies)
        others.1 filter.count)

theorem follows_foldl_drive
    {filters : List Filter}
    (others : ∀ filter ∈ filters, filter.signal ≠ new)
    (applies : Bool)
    {drivers mirrored : List Driver}
    (alike : List.Forall₂ Driver.Alike drivers mirrored)
    (slotted : ∀ driver ∈ drivers, ∃ filter ∈ filters,
      driver.slot.bind (filters[·]?) = some filter)
    {frame renamed : Frame}
    (follows : Frame.Follows (· ≠ new) (Signal.renameIf applies old new) frame renamed) :
    Frame.Follows (· ≠ new) (Signal.renameIf applies old new)
      (drivers.foldl (Driver.drive filters) frame)
      (mirrored.foldl (Driver.drive (filters.map fun filter =>
        { filter with signal := Signal.renameIf applies old new filter.signal })) renamed) := by
  induction alike generalizing frame renamed with
  | nil =>
      exact follows
  | @cons driver mirror _ _ same _ inductionHypothesis =>
      rw [List.forall_mem_cons] at slotted
      obtain ⟨filter, isFilter, found⟩ := slotted.1
      have foundMirror : mirror.slot.bind ((filters.map fun filter =>
          { filter with signal := Signal.renameIf applies old new filter.signal })[·]?) =
            some { filter with signal := Signal.renameIf applies old new filter.signal } := by
        obtain ⟨slot, isSlot, atSlot⟩ := Option.bind_eq_some_iff.mp found
        simp [same.slot_eq, isSlot, atSlot]
      refine inductionHypothesis slotted.2 ?_
      rw [Driver.drive, Driver.drive, Driver.target_eq found, Driver.target_eq foundMirror,
        same.source_eq, same.calls_eq]
      exact follows.assign
        (fun _ _ firstOther secondOther => Signal.renameIf_inj firstOther secondOther applies)
        (others filter isFilter) _

/-- The next output of a listed combinator has the same counts. -/
theorem Mirrors.follows_nextOutput
    (renames : Renames entities board other old new points)
    (mirrors : Mirrors entities board other old new points circuit mirror)
    {id : Nat}
    (listed : id ∈ entities) :
    Frame.Follows (· ≠ new) (Signal.renameIf (some (board.output id) ∈ points) old new)
      (circuit.nextOutput board id) (mirror.nextOutput other id) := by
  have bodyEq := renames.relabeled.body_eq id
  unfold nextOutput
  cases body : (board.entity id).body with
  | constant isOn filters =>
      rw [body, Body.relabel_constant] at bodyEq
      have others : ∀ filter ∈ filters, filter.signal ≠ new := by
        intro filter isFilter
        refine renames.ne_of_mem_outputs listed ?_
        rw [body]
        exact List.mem_map_of_mem isFilter
      simp only [bodyEq, constantOutput]
      split
      · exact follows_foldl_drive others _ (alike_filter mirrors.alike id)
          (slotted_filter mirrors.regular.slotted body)
          (follows_foldl_offer others _ Frame.Follows.empty)
      · exact Frame.Follows.empty
  | decider condition =>
      rw [body, Body.relabel_decider] at bodyEq
      have outputOther := renames.ne_of_mem_outputs listed
        (show condition.output ∈ _ by simp [body, Body.outputs])
      obtain ⟨firstEq, secondEq⟩ := mirrors.operands_eq renames listed
        (show _ = condition.first :: condition.second.signal?.toList by rw [body, Body.operands])
      intro signal isOther
      simp only [bodyEq, deciderOutput, firstEq, decide_eq_true_eq, secondEq]
      split
      · simp only [Frame.count_single, Signal.renameIf_inj isOther outputOther]
        split
        · split
          · rename_i copies
            exact mirrors.count_passed renames listed (by rw [body]; exact copies)
              (by simp [body, Body.outputs])
          · rfl
        · rfl
      · rfl
  | arithmetic condition =>
      rw [body, Body.relabel_arithmetic] at bodyEq
      have outputOther := renames.ne_of_mem_outputs listed
        (show condition.output ∈ _ by simp [body, Body.outputs])
      obtain ⟨firstEq, secondEq⟩ := mirrors.operands_eq renames listed
        (show _ = condition.first :: condition.second.signal?.toList by rw [body, Body.operands])
      intro signal isOther
      simp only [bodyEq, arithmeticOutput, firstEq, decide_eq_true_eq, secondEq,
        Frame.count_single, Signal.renameIf_inj isOther outputOther]
  | fixture name =>
      rw [body, Body.relabel_fixture] at bodyEq
      simp only [bodyEq]
      exact Frame.Follows.empty

theorem isAsked_eq_of_relabeled
    (relabeled : board.Relabeled other old new points)
    (members_eq : mirror.members = circuit.members)
    {driver mirrored : Driver}
    (alike : driver.Alike mirrored) :
    mirror.isAsked other mirrored = circuit.isAsked board driver := by
  unfold isAsked
  rw [members_eq, alike.entity_eq, relabeled.body_eq]
  cases (board.entity driver.entity).body with
  | constant => rw [Body.relabel_constant]
  | decider => rw [Body.relabel_decider]
  | arithmetic => rw [Body.relabel_arithmetic]
  | fixture => rw [Body.relabel_fixture]

/-- A step keeps the counts the same. -/
theorem Mirrors.step
    (renames : Renames entities board other old new points)
    (mirrors : Mirrors entities board other old new points circuit mirror) :
    Mirrors entities board other old new points (circuit.step board) (mirror.step other) where
  regular := mirrors.regular.step
  regularMirror := mirrors.regularMirror.step
  members_eq := mirrors.members_eq
  mirror_members_eq := mirrors.mirror_members_eq
  alike := by
    simp only [Circuit.step, Array.toList_map, List.forall₂_map_left_iff,
      List.forall₂_map_right_iff]
    refine mirrors.alike.imp fun driver mirrored same => ?_
    rw [isAsked_eq_of_relabeled renames.relabeled
      (mirrors.mirror_members_eq.trans mirrors.members_eq.symm) same]
    split
    · exact ⟨same.entity_eq, same.slot_eq, same.source_eq, congrArg (· + 1) same.calls_eq⟩
    · exact same
  follows := by
    intro id
    by_cases listed : id ∈ entities
    · rw [output_step mirrors.regular.sound.sized board (mirrors.members_eq ▸ listed),
        output_step mirrors.regularMirror.sound.sized other (mirrors.mirror_members_eq ▸ listed)]
      exact mirrors.follows_nextOutput renames listed
    · rw [output_eq_empty (by rwa [members_step, mirrors.members_eq]),
        output_eq_empty (by rwa [members_step, mirrors.mirror_members_eq])]
      exact Frame.Follows.empty

/-- A run keeps the counts the same. -/
theorem Mirrors.run
    (renames : Renames entities board other old new points)
    (mirrors : Mirrors entities board other old new points circuit mirror)
    (count : Nat) :
    Mirrors entities board other old new points (circuit.run board count)
      (mirror.run other count) := by
  induction count with
  | zero =>
      exact mirrors
  | succ count inductionHypothesis =>
      rw [run_succ, run_succ]
      exact inductionHypothesis.step renames

/-! ## The start of a simulation -/

/-- A circuit of listed combinators before its first step, with drivers that follow slots. -/
structure Initial (entities : List Nat) (board : Board) (circuit : Circuit) : Prop where
  sound : circuit.Sound
  members_eq : circuit.members = entities
  silent : ∀ id, circuit.output id = SignalMap.empty
  slotted : ∀ driver ∈ circuit.drivers.toList, driver.Slotted board

theorem Initial.regular
    (initial : Initial entities board circuit) :
    circuit.Regular board where
  sound := initial.sound
  slotted := initial.slotted
  within := by
    intro id signal _
    rw [initial.silent]
    exact Frame.count_empty signal

theorem slotted_of_relabeled
    (relabeled : board.Relabeled other old new points)
    {driver : Driver}
    (slotted : driver.Slotted board) :
    driver.Slotted other := by
  intro isOn renamed bodyEq
  rw [relabeled.body_eq] at bodyEq
  cases body : (board.entity driver.entity).body with
  | constant wasOn filters =>
      rw [body, Body.relabel_constant] at bodyEq
      cases bodyEq
      obtain ⟨filter, isFilter, found⟩ := slotted _ filters body
      obtain ⟨slot, isSlot, atSlot⟩ := Option.bind_eq_some_iff.mp found
      exact ⟨_, List.mem_map_of_mem isFilter, by simp [isSlot, atSlot]⟩
  | decider condition =>
      rw [body, Body.relabel_decider] at bodyEq
      cases bodyEq
  | arithmetic condition =>
      rw [body, Body.relabel_arithmetic] at bodyEq
      cases bodyEq
  | fixture name =>
      rw [body, Body.relabel_fixture] at bodyEq
      cases bodyEq

theorem Initial.relabeled
    (initial : Initial entities board circuit)
    (relabeled : board.Relabeled other old new points) :
    Initial entities other circuit :=
  ⟨initial.sound, initial.members_eq, initial.silent, fun driver isDriver =>
    slotted_of_relabeled relabeled (initial.slotted driver isDriver)⟩

/-- Circuits of the same members with drivers of the same slots. -/
structure Twins (board : Board) (circuit twin : Circuit) : Prop where
  regular : circuit.Regular board
  twinSound : twin.Sound
  members_eq : twin.members = circuit.members
  alike : List.Forall₂ Driver.Alike circuit.drivers.toList twin.drivers.toList
  output_eq : ∀ id, twin.output id = circuit.output id

theorem foldl_drive_of_alike
    {filters : List Filter}
    {drivers others : List Driver}
    (alike : List.Forall₂ Driver.Alike drivers others)
    (slotted : ∀ driver ∈ drivers, ∃ filter ∈ filters,
      driver.slot.bind (filters[·]?) = some filter)
    (frame : Frame) :
    others.foldl (Driver.drive filters) frame = drivers.foldl (Driver.drive filters) frame := by
  induction alike generalizing frame with
  | nil =>
      rfl
  | @cons driver other _ _ same _ inductionHypothesis =>
      rw [List.forall_mem_cons] at slotted
      obtain ⟨filter, -, found⟩ := slotted.1
      have foundOther : other.slot.bind (filters[·]?) = some filter := same.slot_eq ▸ found
      rw [List.foldl_cons, List.foldl_cons, inductionHypothesis slotted.2]
      simp only [Driver.drive, Driver.target_eq found, Driver.target_eq foundOther, same.source_eq,
        same.calls_eq]

theorem Twins.nextOutput_eq
    {twin : Circuit}
    (twins : Twins board circuit twin)
    (id : Nat) :
    twin.nextOutput board id = circuit.nextOutput board id := by
  have inputEq : twin.input board (board.input id) = circuit.input board (board.input id) := by
    unfold input addNetwork contribution
    simp only [twins.output_eq]
  unfold nextOutput
  cases body : (board.entity id).body with
  | constant isOn filters =>
      simp only [constantOutput, foldl_drive_of_alike (alike_filter twins.alike id)
        (slotted_filter twins.regular.slotted body)]
  | decider condition => simp only [inputEq]
  | arithmetic condition => simp only [inputEq]
  | fixture => rfl

theorem Twins.step
    {twin : Circuit}
    (twins : Twins board circuit twin) :
    Twins board (circuit.step board) (twin.step board) where
  regular := twins.regular.step
  twinSound := twins.twinSound.step board
  members_eq := twins.members_eq
  alike := by
    simp only [Circuit.step, Array.toList_map, List.forall₂_map_left_iff,
      List.forall₂_map_right_iff]
    refine twins.alike.imp fun driver other same => ?_
    have askedEq : twin.isAsked board other = circuit.isAsked board driver := by
      unfold isAsked
      rw [twins.members_eq, same.entity_eq]
    rw [askedEq]
    split
    · exact ⟨same.entity_eq, same.slot_eq, same.source_eq, congrArg (· + 1) same.calls_eq⟩
    · exact same
  output_eq := by
    intro id
    by_cases member : id ∈ circuit.members
    · rw [output_step twins.regular.sound.sized board member,
        output_step twins.twinSound.sized board (twins.members_eq ▸ member), twins.nextOutput_eq]
    · rw [output_eq_empty (by rwa [members_step, twins.members_eq]),
        output_eq_empty (by rwa [members_step])]

theorem Twins.run
    {twin : Circuit}
    (twins : Twins board circuit twin)
    (count : Nat) :
    Twins board (circuit.run board count) (twin.run board count) := by
  induction count with
  | zero =>
      exact twins
  | succ count inductionHypothesis =>
      rw [run_succ, run_succ]
      exact inductionHypothesis.step

end Circuit

end CircuitNetwork
