import CircuitNetwork.Proofs.Circuit.Start
import Mathlib.Algebra.GroupWithZero.Nat
import Mathlib.Logic.Relation

namespace CircuitNetwork.Circuit

/-!
# Workers

A step can be shared among workers. Each of them gets a range of indices and
updates one after another: it computes the next output of a member from the
outputs before the step, and stores it in the place of that member in another
buffer. The workers run at the same time, so their computations and stores come
in any order. Afterwards the two buffers change places, and the next step writes
over the outputs of the step before the last.
-/

open Relation

variable {circuit : Circuit} {board : Board}

/-! ## The ranges -/

/-- The ranges from a given start on, each beginning where the one before it ends. -/
def launches (count share start : Nat) : List (Nat × Nat) :=
  if start < count ∧ 0 < share then
    (start, min (start + share) count) :: launches count share (start + share)
  else
    []
  termination_by count - start

/-- The indices of a range. -/
def indices (range : Nat × Nat) : List Nat :=
  (List.range (range.2 - range.1)).map (range.1 + ·)

theorem indices_eq_range'
    (range : Nat × Nat) :
    indices range = List.range' range.1 (range.2 - range.1) := by
  rw [indices, List.range'_eq_map_range]

/-- Ranges that are counted off are those that begin where the one before ends. -/
theorem map_range_eq_launches
    {count share : Nat}
    (positive : 0 < share)
    (start : Nat) :
    (List.range ((count - start + share - 1) / share)).map (fun worker =>
        (start + worker * share, min (start + (worker + 1) * share) count)) =
      launches count share start := by
  fun_induction launches count share start with
  | case1 start more inductionHypothesis =>
      have oneMore : (count - start + share - 1) / share =
          (count - (start + share) + share - 1) / share + 1 := by
        rcases Nat.lt_or_ge (start + share) count with several | last
        · rw [← Nat.add_div_right _ positive]
          congr 1
          omega
        · have one : (count - start + share - 1) / share = 1 :=
            Nat.div_eq_of_lt_le (by omega) (by omega)
          have none : (count - (start + share) + share - 1) / share = 0 :=
            Nat.div_eq_of_lt (by omega)
          rw [one, none]
      have shifted (worker : Nat) :
          start + (worker + 1) * share = start + share + worker * share := by
        rw [Nat.succ_mul]
        omega
      rw [oneMore, List.range_succ_eq_map, List.map_cons, List.map_map, ← inductionHypothesis]
      simp only [Nat.zero_mul, Nat.add_zero, Nat.zero_add, Nat.one_mul, List.cons.injEq, true_and]
      apply List.map_congr_left
      intro worker _
      simp only [Function.comp_apply, Nat.succ_eq_add_one, shifted]
  | case2 start none =>
      have nothing : count - start = 0 := by omega
      rw [nothing, Nat.zero_add, Nat.div_eq_of_lt (by omega)]
      rfl

theorem ranges_eq_launches
    (count workers : Nat) :
    ranges count workers = launches count (share count workers) 0 := by
  rcases Nat.eq_zero_or_pos count with rfl | someIndex
  · rw [launches, if_neg (by omega)]
    simp [ranges, share]
  · rw [← map_range_eq_launches (share_pos someIndex workers)]
    simp only [ranges, Nat.zero_add, Nat.sub_zero]

/-- Every range has an index, and no index beyond the last one. -/
theorem bounds_of_mem_launches
    {count share start : Nat}
    {range : Nat × Nat}
    (launched : range ∈ launches count share start) :
    range.1 < range.2 ∧ range.2 ≤ count := by
  fun_induction launches count share start with
  | case1 start more inductionHypothesis =>
      rcases List.mem_cons.mp launched with rfl | later
      · exact ⟨by simp only; omega, Nat.min_le_right _ _⟩
      · exact inductionHypothesis later
  | case2 start none =>
      cases launched

/-- The ranges hold the indices from the start on, each of them once. -/
theorem flatMap_indices_launches
    {count share : Nat}
    (positive : 0 < share)
    (start : Nat) :
    (launches count share start).flatMap indices = List.range' start (count - start) := by
  fun_induction launches count share start with
  | case1 start more inductionHypothesis =>
      rw [List.flatMap_cons, inductionHypothesis, indices_eq_range']
      rcases Nat.le_total (start + share) count with inside | beyond
      · rw [Nat.min_eq_left inside, Nat.add_sub_cancel_left, List.range'_append_1]
        congr 1
        omega
      · rw [Nat.min_eq_right beyond, Nat.sub_eq_zero_of_le beyond, List.range'_zero, List.append_nil]
  | case2 start none =>
      rw [show count - start = 0 by omega]
      rfl

theorem flatMap_indices_ranges
    (count workers : Nat) :
    (ranges count workers).flatMap indices = List.range count := by
  rcases Nat.eq_zero_or_pos count with rfl | someIndex
  · simp [ranges, share]
  · rw [ranges_eq_launches, flatMap_indices_launches (share_pos someIndex workers), Nat.sub_zero,
      List.range_eq_range']

/-! ## Any order of updates -/

/-- An order of updates that keeps the order in which each worker makes its own. -/
inductive Interleaves : List (List Nat) → List Nat → Prop where
  | done {lists : List (List Nat)}
      (finished : ∀ list ∈ lists, list = []) :
      Interleaves lists []
  | next {before after : List (List Nat)} {index : Nat} {rest order : List Nat}
      (later : Interleaves (before ++ rest :: after) order) :
      Interleaves (before ++ (index :: rest) :: after) (index :: order)

theorem Interleaves.perm
    {lists : List (List Nat)}
    {order : List Nat}
    (interleaves : Interleaves lists order) :
    order.Perm lists.flatten := by
  induction interleaves with
  | done finished =>
      rw [List.flatten_eq_nil_iff.mpr finished]
  | @next before after index rest order _ inductionHypothesis =>
      simp only [List.flatten_append, List.flatten_cons, List.cons_append] at inductionHypothesis ⊢
      exact (inductionHypothesis.cons index).trans List.perm_middle.symm

/-- Orders that update the same indices, among them all that there are, write the same outputs,
whatever was in the buffers before. -/
theorem foldl_update_eq
    {order other : List Nat}
    (sameIndices : ∀ index, index ∈ order ↔ index ∈ other)
    (complete : ∀ index < circuit.members.length, index ∈ order)
    {frames stale : Array Frame}
    (sized : frames.size = circuit.members.length)
    (staleSized : stale.size = circuit.members.length) :
    order.foldl (circuit.update board) frames = other.foldl (circuit.update board) stale := by
  apply Array.ext_getElem?
  intro index
  rw [getElem?_foldl_update circuit board _ _ sized,
    getElem?_foldl_update circuit board _ _ staleSized]
  simp only [← sameIndices]
  split
  · rfl
  · rename_i missing
    have outside : circuit.members.length ≤ index := by
      by_contra inside
      exact missing (complete index (by omega))
    rw [Array.getElem?_eq_none (by omega), Array.getElem?_eq_none (by omega)]

/-! ## Workers at work -/

/-- A worker in the middle of a step: the indices that it has yet to update, and the new output for
the first of them, if it has computed it. -/
structure Worker where
  left : List Nat
  held : Option Frame := none

/-- The workers of a step and the buffer that they write. -/
structure Crew where
  back : Array Frame
  workers : List Worker

namespace Crew

/-- The workers at the start of a step, with what the buffer holds from an earlier one. -/
def start (stale : Array Frame) (lists : List (List Nat)) : Crew :=
  ⟨stale, lists.map fun list => { left := list }⟩

/-- All updates are made. -/
def Finished (crew : Crew) : Prop :=
  ∀ worker ∈ crew.workers, worker.left = []

/-- What a worker does next. It computes an output from the outputs before the step, or it stores the
one that it holds. -/
inductive Move (circuit : Circuit) (board : Board) : Crew → Crew → Prop where
  | compute {back : Array Frame} {before after : List Worker} {index id : Nat} {rest : List Nat}
      (member : circuit.members[index]? = some id) :
      Move circuit board
        ⟨back, before ++ ⟨index :: rest, none⟩ :: after⟩
        ⟨back, before ++ ⟨index :: rest, some (circuit.nextOutput board id)⟩ :: after⟩
  | store {back : Array Frame} {before after : List Worker} {index : Nat} {rest : List Nat}
      {frame : Frame} :
      Move circuit board
        ⟨back, before ++ ⟨index :: rest, some frame⟩ :: after⟩
        ⟨back.setIfInBounds index frame, before ++ ⟨rest, none⟩ :: after⟩

/-- All that is left to do are updates of members, and what a worker holds is the next output of the
member that it is at. -/
structure Faithful (circuit : Circuit) (board : Board) (worker : Worker) : Prop where
  inRange : ∀ index ∈ worker.left, index < circuit.members.length
  held_eq : ∀ frame, worker.held = some frame →
    ∃ index rest id, worker.left = index :: rest ∧ circuit.members[index]? = some id ∧
      frame = circuit.nextOutput board id

/-- The number of moves that are left. -/
def work (crew : Crew) : Nat :=
  (crew.workers.map fun worker => 2 * worker.left.length - worker.held.toList.length).sum

variable {crew later : Crew}

theorem faithful_start
    {lists : List (List Nat)}
    (inRange : ∀ list ∈ lists, ∀ index ∈ list, index < circuit.members.length)
    (stale : Array Frame) :
    ∀ worker ∈ (start stale lists).workers, Faithful circuit board worker := by
  intro worker isWorker
  obtain ⟨list, isList, rfl⟩ := List.mem_map.mp isWorker
  exact ⟨inRange list isList, nofun⟩

theorem Move.faithful
    (move : Move circuit board crew later)
    (faithful : ∀ worker ∈ crew.workers, Faithful circuit board worker) :
    ∀ worker ∈ later.workers, Faithful circuit board worker := by
  cases move with
  | @compute back before after index id rest member =>
      simp only [List.forall_mem_append, List.forall_mem_cons] at faithful ⊢
      obtain ⟨others, mover, rest⟩ := faithful
      refine ⟨others, ⟨mover.inRange, ?_⟩, rest⟩
      rintro _ ⟨rfl⟩
      exact ⟨index, _, id, rfl, member, rfl⟩
  | store =>
      simp only [List.forall_mem_append, List.forall_mem_cons] at faithful ⊢
      obtain ⟨others, mover, rest⟩ := faithful
      exact ⟨others, ⟨fun index isLeft => mover.inRange index (List.mem_cons_of_mem _ isLeft), nofun⟩,
        rest⟩

theorem Move.work_eq
    (move : Move circuit board crew later) :
    crew.work = later.work + 1 := by
  cases move with
  | compute =>
      simp only [work, List.map_append, List.map_cons, List.sum_append, List.sum_cons,
        List.length_cons, Option.toList_none, Option.toList_some, List.length_nil]
      omega
  | store =>
      simp only [work, List.map_append, List.map_cons, List.sum_append, List.sum_cons,
        List.length_cons, Option.toList_none, Option.toList_some, List.length_nil]
      omega

/-- As long as something is left to do, some worker can move. -/
theorem exists_move
    (faithful : ∀ worker ∈ crew.workers, Faithful circuit board worker)
    (unfinished : ¬crew.Finished) :
    ∃ later, Move circuit board crew later := by
  simp only [Finished, not_forall] at unfinished
  obtain ⟨⟨left, held⟩, isWorker, isLeft⟩ := unfinished
  obtain ⟨index, rest, rfl⟩ := List.exists_cons_of_ne_nil isLeft
  obtain ⟨back, workers⟩ := crew
  obtain ⟨before, after, rfl⟩ := List.append_of_mem isWorker
  cases held with
  | none =>
      have inRange := (faithful _ isWorker).inRange index List.mem_cons_self
      exact ⟨_, .compute (List.getElem?_eq_getElem inRange)⟩
  | some frame =>
      exact ⟨_, .store⟩

/-- Workers that go on come to an end. -/
theorem exists_finished
    (faithful : ∀ worker ∈ crew.workers, Faithful circuit board worker) :
    ∃ last, ReflTransGen (Move circuit board) crew last ∧ last.Finished := by
  induction left : crew.work generalizing crew with
  | zero =>
      refine ⟨crew, .refl, ?_⟩
      by_contra unfinished
      obtain ⟨later, move⟩ := exists_move faithful unfinished
      have := move.work_eq
      omega
  | succ left inductionHypothesis =>
      by_cases finished : crew.Finished
      · exact ⟨crew, .refl, finished⟩
      · obtain ⟨later, move⟩ := exists_move faithful finished
        have fewer := move.work_eq
        obtain ⟨last, moves, isLast⟩ := inductionHypothesis (move.faithful faithful) (by omega)
        exact ⟨last, .head move moves, isLast⟩

theorem faithful_of_moves
    (moves : ReflTransGen (Move circuit board) crew later)
    (faithful : ∀ worker ∈ crew.workers, Faithful circuit board worker) :
    ∀ worker ∈ later.workers, Faithful circuit board worker := by
  induction moves with
  | refl =>
      exact faithful
  | tail _ move inductionHypothesis =>
      exact move.faithful inductionHypothesis

/-- Whatever the order of computations and stores, the stores are updates in some order that keeps
that of each worker. -/
theorem exists_interleaves
    (moves : ReflTransGen (Move circuit board) crew later)
    (finished : later.Finished)
    (faithful : ∀ worker ∈ crew.workers, Faithful circuit board worker) :
    ∃ order, Interleaves (crew.workers.map (·.left)) order ∧
      later.back = order.foldl (circuit.update board) crew.back := by
  -- The induction goes from the end of the step to its start.
  induction moves using ReflTransGen.head_induction_on with
  | refl =>
      refine ⟨[], .done ?_, rfl⟩
      intro list isList
      obtain ⟨worker, isWorker, rfl⟩ := List.mem_map.mp isList
      exact finished worker isWorker
  | head move _ inductionHypothesis =>
      obtain ⟨order, interleaves, written⟩ := inductionHypothesis (move.faithful faithful)
      cases move with
      | compute =>
          refine ⟨order, ?_, written⟩
          simpa using interleaves
      | @store back before after index rest frame =>
          simp only [List.map_append, List.map_cons] at interleaves ⊢
          refine ⟨index :: order, .next interleaves, ?_⟩
          obtain ⟨_, _, id, isLeft, member, rfl⟩ :=
            (faithful ⟨index :: rest, some frame⟩ (by simp)).held_eq frame rfl
          obtain ⟨rfl, -⟩ := List.cons.inj isLeft
          rw [List.foldl_cons, update, member]
          exact written

end Crew

/-! ## One step after another -/

/-- The indices of each worker. Without several workers one of them has all. -/
def tasks (circuit : Circuit) : List (List Nat) :=
  if circuit.workers ≤ 1 then
    [List.range circuit.members.length]
  else
    (ranges circuit.members.length circuit.workers.toNat).map indices

theorem flatten_tasks
    (circuit : Circuit) :
    circuit.tasks.flatten = List.range circuit.members.length := by
  unfold tasks
  split
  · exact List.flatten_singleton
  · rw [← List.flatMap_def, flatMap_indices_ranges]

/-- The frames after a step do not depend on the number of workers. -/
theorem frames_step_eq
    (sized : circuit.frames.size = circuit.members.length)
    (board : Board)
    (workers : Int) :
    ({ circuit with workers := workers }.step board).frames = (circuit.step board).frames := by
  apply Array.ext_getElem?
  intro index
  have otherSized : { circuit with workers := workers }.frames.size = circuit.members.length := sized
  rw [getElem?_frames_step sized, getElem?_frames_step otherSized]
  rfl

/-- In whatever order the workers make their updates, they write what a step writes. -/
theorem foldl_update_of_interleaves
    (sized : circuit.frames.size = circuit.members.length)
    {stale : Array Frame}
    (staleSized : stale.size = circuit.members.length)
    {order : List Nat}
    (interleaves : Interleaves circuit.tasks order) :
    order.foldl (circuit.update board) stale = (circuit.step board).frames := by
  have perm := interleaves.perm
  rw [flatten_tasks] at perm
  have mem_order (index : Nat) : index ∈ order ↔ index < circuit.members.length := by
    rw [perm.mem_iff, List.mem_range]
  have sequential : (circuit.step board).frames =
      (List.range circuit.members.length).foldl (circuit.update board) circuit.frames := by
    rw [← frames_step_eq sized board 1]
    rfl
  rw [sequential]
  refine foldl_update_eq (fun index => ?_) (fun index => (mem_order index).mpr) staleSized sized
  rw [mem_order, List.mem_range]

theorem faithful_tasks
    (circuit : Circuit)
    (board : Board)
    (stale : Array Frame) :
    ∀ worker ∈ (Crew.start stale circuit.tasks).workers, Crew.Faithful circuit board worker := by
  apply Crew.faithful_start
  intro list isList index isIndex
  have listed : index ∈ circuit.tasks.flatten := List.mem_flatten.mpr ⟨list, isList, isIndex⟩
  rwa [flatten_tasks, List.mem_range] at listed

/-- Workers that made all of their updates have written what a step writes. -/
theorem back_of_finished
    (sized : circuit.frames.size = circuit.members.length)
    {stale : Array Frame}
    (staleSized : stale.size = circuit.members.length)
    {crew : Crew}
    (moves : ReflTransGen (Crew.Move circuit board) (.start stale circuit.tasks) crew)
    (finished : crew.Finished) :
    crew.back = (circuit.step board).frames := by
  obtain ⟨order, interleaves, written⟩ :=
    Crew.exists_interleaves moves finished (faithful_tasks circuit board stale)
  have sameTasks : (Crew.start stale circuit.tasks).workers.map (·.left) = circuit.tasks := by
    simp [Crew.start, Function.comp_def]
  rw [sameTasks] at interleaves
  rw [written]
  exact foldl_update_of_interleaves sized staleSized interleaves

/-- A simulation, and the buffer that its next step writes to. -/
structure Buffered where
  circuit : Circuit
  back : Array Frame

/-- Steps that workers take together. After each of them the buffers change places. -/
inductive SharedRun (board : Board) (start : Buffered) : Nat → Buffered → Prop where
  | none : SharedRun board start 0 start
  | step {count : Nat} {circuit : Circuit} {stale : Array Frame} {crew : Crew}
      (before : SharedRun board start count ⟨circuit, stale⟩)
      (moves : ReflTransGen (Crew.Move circuit board) (.start stale circuit.tasks) crew)
      (finished : crew.Finished) :
      SharedRun board start (count + 1)
        ⟨{ circuit.step board with frames := crew.back }, circuit.frames⟩

variable {start last : Buffered} {count : Nat}

/-- Steps that workers take together are the steps of the simulation. -/
theorem SharedRun.circuit_eq
    (shared : SharedRun board start count last)
    (sized : start.circuit.frames.size = start.circuit.members.length)
    (staleSized : start.back.size = start.circuit.members.length) :
    last.circuit = start.circuit.run board count ∧
      last.back.size = start.circuit.members.length := by
  induction shared with
  | none =>
      exact ⟨rfl, staleSized⟩
  | @step count circuit stale crew _ moves finished inductionHypothesis =>
      obtain ⟨rfl, lastSized⟩ := inductionHypothesis
      have members := members_run start.circuit board count
      have sizedNow := size_frames_run sized board count
      refine ⟨?_, sizedNow⟩
      rw [← members] at sizedNow lastSized
      rw [run_succ, back_of_finished sizedNow lastSized moves finished]

/-- Workers can always take another step together. -/
theorem exists_sharedRun
    (board : Board)
    (start : Buffered)
    (count : Nat) :
    ∃ last, SharedRun board start count last := by
  induction count with
  | zero =>
      exact ⟨start, .none⟩
  | succ count inductionHypothesis =>
      obtain ⟨⟨circuit, stale⟩, before⟩ := inductionHypothesis
      obtain ⟨crew, moves, finished⟩ :=
        Crew.exists_finished (faithful_tasks circuit board stale)
      exact ⟨_, before.step moves finished⟩

/-- Only the number of workers tells simulations with different numbers of workers apart. -/
theorem run_with_workers
    (sized : circuit.frames.size = circuit.members.length)
    (board : Board)
    (workers : Int)
    (count : Nat) :
    { circuit with workers := workers }.run board count =
      { circuit.run board count with workers := workers } := by
  induction count with
  | zero =>
      rfl
  | succ count inductionHypothesis =>
      have sizedNow := size_frames_run sized board count
      rw [← members_run circuit board count] at sizedNow
      have frames := frames_step_eq sizedNow board workers
      rw [run_succ, inductionHypothesis, run_succ]
      exact congrArg (fun written => { (circuit.run board count).step board with
        frames := written, workers := workers }) frames

/-- The ranges of several workers hold every index once and none beyond the last. In any order of
their updates, and of the computations and stores that these are made of, the workers come to an end
with what a single worker writes, whatever was in the buffer before. So a simulation with two
buffers that its workers advance together is the one that a single worker advances, and all numbers
of workers give the same outputs. -/
theorem shared_steps_eq_sequential
    (sized : circuit.frames.size = circuit.members.length)
    (several : 1 < circuit.workers)
    {stale : Array Frame}
    (staleSized : stale.size = circuit.members.length)
    (board : Board) :
    let size := circuit.members.length
    let parts := ranges size circuit.workers.toNat
    let sequential := ({ circuit with workers := 1 }.step board).frames
    (∀ part ∈ parts, part.1 < part.2 ∧ part.2 ≤ size) ∧
    parts.flatMap indices = List.range size ∧
    (∀ order, Interleaves (parts.map indices) order →
      order.foldl (circuit.update board) stale = sequential) ∧
    (∀ crew, ReflTransGen (Crew.Move circuit board) (.start stale (parts.map indices)) crew →
      (∃ last, ReflTransGen (Crew.Move circuit board) crew last ∧ last.Finished) ∧
        (crew.Finished → crew.back = sequential)) ∧
    (∀ count, ∃ last, SharedRun board ⟨circuit, stale⟩ count last) ∧
    (∀ count last, SharedRun board ⟨circuit, stale⟩ count last →
      last.circuit = circuit.run board count) ∧
    ∀ workers count id,
      ({ circuit with workers := workers }.run board count).output id =
        (circuit.run board count).output id := by
  intro size parts sequential
  have sameTasks : circuit.tasks = parts.map indices := if_neg (by omega)
  have sameFrames : sequential = (circuit.step board).frames := frames_step_eq sized board 1
  rw [← sameTasks, sameFrames]
  refine ⟨fun part isPart => ?_, flatMap_indices_ranges size _,
    fun order => foldl_update_of_interleaves sized staleSized, fun crew moves => ⟨?_, ?_⟩,
    exists_sharedRun board _, fun count last shared => (shared.circuit_eq sized staleSized).1,
    fun workers count id => ?_⟩
  · rw [show parts = _ from ranges_eq_launches size _] at isPart
    exact bounds_of_mem_launches isPart
  · exact Crew.exists_finished (Crew.faithful_of_moves moves (faithful_tasks circuit board stale))
  · exact back_of_finished sized staleSized moves
  · rw [run_with_workers sized]
    rfl

/-- Three constants, updated by two workers in a buffer that holds other counts. -/
theorem shared_steps_eq_sequential_three_constants :
    let board := ((({} : Board).add (.ofCount 1)).add (.ofCount 2)).add (.ofCount 3)
    let stale := Array.replicate 3 (Frame.single .value 7)
    ∀ order, Interleaves [[0, 1], [2]] order →
      order.foldl ((fresh [0, 1, 2] 2).update board) stale =
        #[Frame.single .value 1, Frame.single .value 2, Frame.single .value 3] := by
  intro board stale order interleaves
  have staleSized : stale.size = 3 := rfl
  obtain ⟨-, -, agrees, -⟩ :=
    shared_steps_eq_sequential (sound_fresh [0, 1, 2] 2).sized (by decide) staleSized board
  rw [agrees order interleaves]
  decide +kernel

end CircuitNetwork.Circuit
