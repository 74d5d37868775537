import CircuitNetwork.Bench
import CircuitNetwork.Proofs.Synthesis.Cells

namespace CircuitNetwork

/-!
# Benches of cells

A bench for a table of inputs and cells can always be built. It runs all producers
of the table and drives each primary input through one driver, so that setting an
input leaves the others as they are.
-/

namespace Bench

open Design (Simulated)

variable {design : Design} {bench next : Bench}

/-! ## Placing entities -/

/-- A board of the same entities and networks as another one, where all numbers come from an arena. -/
structure Placed (start : Board) (state : Board × Arena) : Prop where
  alike : start.Alike state.1
  numbered : ∀ {entity}, (state.1.entity entity).number ≠ 0 → entity ∈ state.2.members
  nodup : state.2.members.Nodup

variable {start : Board} {state : Board × Arena}

/-- An entity is added unless it is there already. -/
theorem Placed.addEntity
    (placed : Placed start state)
    (entity : Nat) :
    ∃ later,
      (do if !(← get).2.members.contains entity then Arena.addOne entity :
        EStateM Failure (Board × Arena) Unit) state = .ok () later ∧
      Placed start later ∧
      ∀ other, other ∈ later.2.members ↔ other ∈ state.2.members ∨ other = entity := by
  obtain ⟨board, arena⟩ := state
  rw [bind_of_ok (get_run (board, arena))]
  by_cases present : entity ∈ arena.members
  · refine ⟨(board, arena), by simp [present], placed, fun other => ?_⟩
    grind
  · have unnumbered : (board.entity entity).number = 0 := by
      by_contra isNumbered
      exact present (placed.numbered isNumbered)
    refine ⟨_, by simpa [present] using Arena.addOne_run unnumbered arena, ⟨?_, ?_, ?_⟩, ?_⟩
    · exact placed.alike.trans (board.alike_modifyEntity entity fun _ => rfl)
    · intro other isNumbered
      rw [Board.entity_modifyEntity] at isNumbered
      split at isNumbered
      · rename_i same
        simp [same.1]
      · exact List.mem_append_left _ (placed.numbered isNumbered)
    · simpa using placed.nodup.concat present
    · simp

theorem Placed.addNode
    (placed : Placed start state)
    (design : Design)
    (id : Nat) :
    ∃ later, Bench.addNode design (some id) state = .ok () later ∧ Placed start later ∧
      ∀ other, other ∈ later.2.members ↔
        other ∈ state.2.members ∨ other ∈ (design.node id).kind.entities := by
  rw [Bench.addNode]
  generalize (design.node id).kind.entities = entities
  induction entities generalizing state with
  | nil =>
      exact ⟨state, rfl, placed, by simp⟩
  | cons entity rest inductionHypothesis =>
      obtain ⟨middle, added, placedMiddle, members⟩ := placed.addEntity entity
      obtain ⟨later, addedRest, placedLater, restMembers⟩ := inductionHypothesis placedMiddle
      refine ⟨later, ?_, placedLater, fun other => ?_⟩
      · refine Eq.trans (forM_cons_of_ok ?_ rest) addedRest
        exact added
      · rw [restMembers, members]
        grind

theorem Placed.addNodes
    (placed : Placed start state)
    (design : Design)
    {nodes : List (Option Nat)}
    (known : ∀ node ∈ nodes, ∃ id, node = some id) :
    ∃ later, nodes.forM (Bench.addNode design) state = .ok () later ∧ Placed start later ∧
      ∀ other, other ∈ later.2.members ↔
        other ∈ state.2.members ∨ ∃ id, some id ∈ nodes ∧ other ∈ (design.node id).kind.entities := by
  induction nodes generalizing state with
  | nil =>
      exact ⟨state, rfl, placed, by simp⟩
  | cons node rest inductionHypothesis =>
      obtain ⟨id, rfl⟩ := known node List.mem_cons_self
      obtain ⟨middle, added, placedMiddle, members⟩ := placed.addNode design id
      obtain ⟨later, addedRest, placedLater, restMembers⟩ := inductionHypothesis placedMiddle
        fun other member => known other (List.mem_cons_of_mem _ member)
      refine ⟨later, ?_, placedLater, fun other => ?_⟩
      · exact (forM_cons_of_ok added rest).trans addedRest
      · rw [restMembers, members]
        grind

/-! ## Driving inputs -/

/-- A bench on which the primary inputs among some nodes can be set. Each of them has the latest
driver of its constant. -/
structure Ready (design : Design) (nodes : List (Option Nat)) (bench : Bench) : Prop where
  simulated : design.Simulated bench.circuit
  known : ∀ {id}, some id ∈ nodes → id < design.nodes.size
  indexed :
    ∀ {id bits constant}, some id ∈ nodes → (design.node id).kind = .input bits constant →
      ∃ index driver, bench.inputs.lookup id = some index ∧
        bench.circuit.Latest constant index driver

theorem set_run
    {id index : Nat}
    (found : bench.inputs.lookup id = some index)
    (value : Int32) :
    bench.set id value =
      .ok { bench with circuit := { bench.circuit with
        drivers := bench.circuit.drivers.modify index ({ · with source := fun _ => value }) } } := by
  simp only [set, found]

/-- Different inputs have different constants. -/
theorem constant_ne
    (grounded : design.Grounded)
    {id other : Nat}
    (inRange : id < design.nodes.size)
    (otherInRange : other < design.nodes.size)
    {bits otherBits : List Bit}
    {constant otherConstant : Nat}
    (isInput : (design.node id).kind = .input bits constant)
    (isOther : (design.node other).kind = .input otherBits otherConstant)
    (different : other ≠ id) :
    otherConstant ≠ constant := by
  rintro rfl
  have listed : otherConstant ∈ (design.node id).kind.entities := by
    simp [isInput, NodeKind.entities]
  have otherListed : otherConstant ∈ (design.node other).kind.entities := by
    simp [isOther, NodeKind.entities]
  exact different (grounded.apart otherInRange inRange otherListed listed)

namespace Ready

variable {nodes : List (Option Nat)}

/-- A node of the table is driven, if it is an input. -/
theorem driveInput
    (ready : Ready design nodes bench)
    (grounded : design.Grounded)
    {id : Nat}
    (inRange : id < design.nodes.size) :
    Ready design (nodes ++ [some id]) (Bench.driveInput design bench (some id)) := by
  have known {other : Nat} (member : some other ∈ nodes ++ [some id]) :
      other < design.nodes.size := by
    simp only [List.mem_append, List.mem_singleton, Option.some.injEq] at member
    rcases member with before | rfl
    · exact ready.known before
    · exact inRange
  have before {other : Nat} (member : some other ∈ nodes ++ [some id]) (different : other ≠ id) :
      some other ∈ nodes := by
    simpa [different] using member
  cases isKind : (design.node id).kind with
  | input own constant =>
      simp only [Bench.driveInput, isKind]
      refine ⟨⟨ready.simulated.reached.drive ⟨rfl, id, own, inRange, isKind⟩ _,
        ready.simulated.members⟩, known, ?_⟩
      intro other bits otherConstant member isInput
      by_cases same : other = id
      · subst same
        cases isKind.symm.trans isInput
        obtain ⟨driver, latest⟩ := Circuit.Latest.drive_self bench.circuit design.board constant
          .value fun _ => 0
        exact ⟨_, driver, by simp, latest⟩
      · obtain ⟨index, driver, found, latest⟩ := ready.indexed (before member same) isInput
        have different := constant_ne grounded inRange (known member) isKind isInput same
        refine ⟨index, driver, ?_, latest.drive design.board different.symm .value _⟩
        rw [List.lookup_cons, beq_false_of_ne same]
        exact found
  | _ =>
      simp only [Bench.driveInput, isKind]
      refine ⟨ready.simulated, known, fun member isInput => ready.indexed (before member ?_) isInput⟩
      rintro rfl
      rw [isKind] at isInput
      cases isInput

theorem foldl
    (ready : Ready design nodes bench)
    (grounded : design.Grounded)
    (further : List (Option Nat))
    (known : ∀ node ∈ further, ∃ id, node = some id ∧ id < design.nodes.size) :
    Ready design (nodes ++ further) (further.foldl (Bench.driveInput design) bench) := by
  induction further generalizing nodes bench with
  | nil =>
      simpa using ready
  | cons node rest inductionHypothesis =>
      obtain ⟨id, rfl, inRange⟩ := known node List.mem_cons_self
      have driven := inductionHypothesis (ready.driveInput grounded inRange)
        fun other member => known other (List.mem_cons_of_mem _ member)
      rwa [List.append_assoc] at driven

/-- Setting an input changes the value that it holds and no other one. -/
theorem exists_set
    (ready : Ready design nodes bench)
    {id : Nat}
    {bits : List Bit}
    {constant : Nat}
    (member : some id ∈ nodes)
    (isInput : (design.node id).kind = .input bits constant)
    (value : Int32) :
    ∃ next, bench.set id value = .ok next ∧ next.circuit.Holds constant value ∧
      ∀ other held, other ≠ constant → bench.circuit.Holds other held →
        next.circuit.Holds other held := by
  obtain ⟨index, driver, found, latest⟩ := ready.indexed member isInput
  refine ⟨_, set_run found value, ⟨index, _, latest.change index fun _ => value, ?_⟩, ?_⟩
  · rw [if_pos rfl]
  · rintro other held different ⟨otherIndex, otherDriver, otherLatest, isConstant⟩
    refine ⟨otherIndex, _, otherLatest.change index fun _ => value, ?_⟩
    rw [if_neg, isConstant]
    rintro rfl
    cases latest.found.symm.trans otherLatest.found
    exact different (otherLatest.entity_eq.symm.trans latest.entity_eq)

theorem set
    (ready : Ready design nodes bench)
    {id : Nat}
    {value : Int32}
    (sets : bench.set id value = .ok next) :
    Ready design nodes next := by
  unfold Bench.set at sets
  split at sets
  · cases sets
  · cases sets
    refine ⟨⟨ready.simulated.reached.change _ _, ready.simulated.members⟩, ready.known, ?_⟩
    intro other bits constant member isInput
    obtain ⟨index, driver, found, latest⟩ := ready.indexed member isInput
    exact ⟨index, _, found, latest.change _ _⟩

theorem step
    (ready : Ready design nodes bench) :
    Ready design nodes { bench with circuit := bench.circuit.step design.board } := by
  refine ⟨⟨ready.simulated.reached.step, ready.simulated.members⟩, ready.known, ?_⟩
  intro id bits constant member isInput
  obtain ⟨index, driver, found, latest⟩ := ready.indexed member isInput
  obtain ⟨later, -, latestLater⟩ := latest.step design.board
  exact ⟨index, later, found, latestLater⟩

end Ready

/-- Set several inputs. -/
def setAll (bench : Bench) (ids : List Nat) (values : Nat → Int32) : Except Misuse Bench :=
  ids.foldlM (fun bench id => bench.set id (values id)) bench

/-- Inputs can be set in any order, and then hold their values. -/
theorem Ready.exists_setAll
    {nodes : List (Option Nat)}
    (ready : Ready design nodes bench)
    (grounded : design.Grounded)
    {ids : List Nat}
    (areInputs : ∀ id ∈ ids, some id ∈ nodes ∧ (design.node id).kind.isInput)
    (values : Nat → Int32) :
    ∃ held, bench.setAll ids values = .ok held ∧ Ready design nodes held ∧
      ∀ {id bits constant}, some id ∈ nodes → (design.node id).kind = .input bits constant →
        id ∈ ids ∨ bench.circuit.Holds constant (values id) →
          held.circuit.Holds constant (values id) := by
  induction ids generalizing bench with
  | nil =>
      exact ⟨bench, rfl, ready, fun _ _ holds => by simpa using holds⟩
  | cons id rest inductionHypothesis =>
      obtain ⟨member, isInput⟩ := areInputs id List.mem_cons_self
      cases isKind : (design.node id).kind with
      | input bits constant =>
          obtain ⟨next, sets, holdsNext, keeps⟩ := ready.exists_set member isKind (values id)
          obtain ⟨held, setsRest, readyHeld, holdsHeld⟩ := inductionHypothesis (ready.set sets)
            fun other otherMember => areInputs other (List.mem_cons_of_mem _ otherMember)
          refine ⟨held, ?_, readyHeld, ?_⟩
          · rw [setAll, List.foldlM_cons, sets]
            exact setsRest
          · intro other otherBits otherConstant otherMember isOther holds
            refine holdsHeld otherMember isOther ?_
            by_cases same : other = id
            · subst same
              cases isKind.symm.trans isOther
              exact .inr holdsNext
            · have different := constant_ne grounded (ready.known member) (ready.known otherMember)
                isKind isOther same
              refine holds.imp (fun listed => ?_) (keeps _ _ different)
              simpa [same] using listed
      | _ => simp [isKind, NodeKind.isInput] at isInput

/-- The states that a bench can reach. -/
inductive Reached (board : Board) (start : Bench) : Bench → Prop where
  | start : Reached board start start
  | set
      {bench next : Bench}
      (before : Reached board start bench)
      {id : Nat}
      {value : Int32}
      (sets : bench.set id value = .ok next) :
      Reached board start next
  | step
      {bench : Bench}
      (before : Reached board start bench) :
      Reached board start { bench with circuit := bench.circuit.step board }

theorem Ready.reached
    {nodes : List (Option Nat)}
    {start : Bench}
    (ready : Ready design nodes start)
    (reached : Reached design.board start bench) :
    Ready design nodes bench := by
  induction reached with
  | start => exact ready
  | set _ sets inductionHypothesis => exact inductionHypothesis.set sets
  | step _ inductionHypothesis => exact inductionHypothesis.step

/-! ## Building and reading -/

/-- The entities of inputs, literals, cells and outputs can be simulated. -/
theorem simulable_of_stands
    {kind : NodeKind}
    (stands : kind.Stands design.board)
    (plain : kind.isProducer ∨ ∃ bits terminal, kind = .output bits terminal)
    {entity : Nat}
    (member : entity ∈ kind.entities) :
    Circuit.Simulable (design.board.entity entity).body := by
  cases kind with
  | input bits constant =>
      simp only [NodeKind.entities, List.mem_singleton] at member
      rw [member, stands]
      decide
  | literal constant =>
      simp only [NodeKind.entities, List.mem_singleton] at member
      obtain ⟨count, body⟩ := stands
      rw [member, body]
      exact ⟨rfl, rfl⟩
  | output bits terminal =>
      simp only [NodeKind.entities, List.mem_singleton] at member
      rw [member, stands]
      decide
  | gate label a b first =>
      simp only [NodeKind.entities, List.mem_cons, List.not_mem_nil, or_false] at member
      obtain ⟨transforms, ⟨comparator, body⟩ | ⟨operator, body⟩⟩ := stands <;>
        rcases member with rfl | rfl
      · rw [transforms]
        decide
      · rw [body]
        exact ⟨rfl, rfl⟩
      · rw [transforms]
        decide
      · rw [body]
        exact ⟨rfl, rfl⟩
  | mux a b select first =>
      simp only [NodeKind.entities, List.mem_cons, List.not_mem_nil, or_false] at member
      obtain ⟨transforms, takesFirst, takesSecond⟩ := stands
      rcases member with rfl | rfl | rfl
      · rw [transforms]
        decide
      · rw [takesFirst]
        decide
      · rw [takesSecond]
        decide
  | readPort => cases member
  | tap => cases member
  | memory bank => simp [NodeKind.isProducer] at plain

/-- A bench can be built for a table of inputs and cells and for an output. -/
theorem exists_build
    (compiled : design.Compiled)
    (unnumbered : design.board.Unnumbered)
    {output : Nat}
    (inRange : output < design.nodes.size)
    {bits : List Bit}
    {terminal : Nat}
    (isOutput : (design.node output).kind = .output bits terminal) :
    ∃ bench board arena,
      Bench.build design [some output] (design.board, {}) = .ok bench (board, arena) ∧
        design.board.Alike board ∧
        Ready { design with board := board } design.table.nodes bench := by
  have grounded := compiled.coherent.grounded
  have known : ∀ node ∈ design.table.nodes ++ [some output], ∃ id, node = some id := by
    intro node member
    rcases List.mem_append.mp member with registered | isLast
    · obtain ⟨id, bits, same, -⟩ := compiled.listed node registered
      exact ⟨id, same⟩
    · exact ⟨output, List.mem_singleton.mp isLast⟩
  have start : Placed design.board (design.board, {}) :=
    ⟨.refl _, fun isNumbered => absurd (unnumbered _) isNumbered, List.nodup_nil⟩
  obtain ⟨⟨board, arena⟩, added, placed, members⟩ := start.addNodes design known
  simp only [List.not_mem_nil, false_or] at members
  have isMember {id entity : Nat} (listed : some id ∈ design.table.nodes ++ [some output])
      (member : entity ∈ (design.node id).kind.entities) : entity ∈ arena.members :=
    (members entity).mpr ⟨id, listed, member⟩
  have simulable : ∀ entity ∈ arena.members, Circuit.Simulable (board.entity entity).body := by
    intro entity member
    obtain ⟨id, listed, isEntity⟩ := (members entity).mp member
    rw [placed.alike.body_eq]
    rcases List.mem_append.mp listed with registered | isLast
    · obtain ⟨_, own, same, idInRange, source⟩ := compiled.listed _ registered
      cases same
      exact simulable_of_stands (grounded.stands idInRange) (.inl source.isProducer) isEntity
    · cases List.mem_singleton.mp isLast
      exact simulable_of_stands (grounded.stands inRange) (.inr ⟨bits, terminal, isOutput⟩) isEntity
  have nonempty : arena.members ≠ [] := by
    have present : terminal ∈ arena.members :=
      isMember (List.mem_append_right _ List.mem_cons_self)
        (by simp [isOutput, NodeKind.entities])
    exact List.ne_nil_of_mem present
  have built : Circuit.ofEntities board 0 arena.members = .ok (.fresh arena.members 0) :=
    Circuit.ofEntities_eq_ok_iff.mpr ⟨nonempty, placed.nodup, simulable, rfl⟩
  have blank : Ready { design with board := board } []
      { circuit := .fresh arena.members 0 } :=
    { simulated := ⟨.start built, fun found entity member =>
        isMember (List.mem_append_left _ (Table.mem_nodes_of_find? found)) member⟩
      known := by simp
      indexed := by simp }
  have ready := blank.foldl (compiled.coherent.withBoard placed.alike).grounded design.table.nodes
    fun node member => by
      obtain ⟨id, own, same, idInRange, -⟩ := compiled.listed node member
      exact ⟨id, same, idInRange⟩
  refine ⟨_, board, arena, ?_, placed.alike, ready⟩
  rw [Bench.build, bind_of_ok added, bind_of_ok (get_run (board, arena))]
  simp only [built]
  rfl

/-- An endpoint with a red wire shows what is on its red network. -/
theorem read_eq_value_red
    {board : Board}
    {point other : Endpoint}
    (joined : board.Joined .red other point)
    (circuit : Circuit) :
    Bench.read circuit board point = circuit.value board point .red .value := by
  obtain ⟨network, -, found⟩ := joined
  simp [Bench.read, Color.all, found]

end Bench

end CircuitNetwork
