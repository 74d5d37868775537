import CircuitNetwork.Proofs.Synthesis.Run

namespace CircuitNetwork

/-!
# The networks of a design

The networks on the board of a design are those of the wires inside its nodes
and of some of the wires from producers to consumers: at least those of the nodes
that are completely wired, and never any other wires.
-/

/-! ## Read ports -/

namespace Bank

/-- The wires between a read port and a row, and to the decider of the row before it. -/
def readWires (geometry : Geometry) (port row : Nat) : List (Color × List Endpoint) :=
  let reader := readAt geometry port row
  [(.green, [⟨latchAt row, .two⟩, ⟨reader, .one⟩]),
   (.red, [⟨addressAt geometry port, .two⟩, ⟨reader, .one⟩])] ++
    if row = 0 then []
    else Color.all.map fun color => (color, [⟨reader - 1, .two⟩, ⟨reader, .two⟩])

/-- The output of the last decider of a read port. -/
def portOutput (bank : Bank) (port : Nat) : Endpoint :=
  ⟨bank.first + addressAt bank.geometry port + bank.geometry.size, .two⟩

/-- After some rows the last decider is that of the last of them, and the next one is wired to it. -/
theorem foldl_extend
    (geometry : Geometry)
    (port count : Nat) :
    (List.range count).foldl (ReadChain.extend geometry port) {} =
      { wires := (List.range count).flatMap (readWires geometry port)
        last := if count = 0 then none else some (readAt geometry port (count - 1)) } := by
  induction count with
  | zero =>
      rfl
  | succ count inductionHypothesis =>
      rw [List.range_succ, List.foldl_append, inductionHypothesis, List.flatMap_append]
      cases count <;> simp [ReadChain.extend, readWires, readAt]

/-- The wires of a read port, row by row. -/
theorem wires_readChain
    (geometry : Geometry)
    (port : Nat) :
    (readChain geometry port).wires =
      (List.range geometry.size).flatMap (readWires geometry port) := by
  rw [readChain, foldl_extend]

/-- A read port ends in the decider of the last row. Without rows there is none. -/
theorem last_readChain
    (geometry : Geometry)
    (port : Nat) :
    (readChain geometry port).last =
      if geometry.size = 0 then none else some (readAt geometry port (geometry.size - 1)) := by
  rw [readChain, foldl_extend]

theorem portOutput?_eq
    {bank : Bank}
    (rows : 1 ≤ bank.geometry.size)
    (port : Nat) :
    bank.portOutput? port = some (bank.portOutput port) := by
  have place : bank.first + readAt bank.geometry port (bank.geometry.size - 1) =
      bank.first + addressAt bank.geometry port + bank.geometry.size := by
    rw [readAt]
    omega
  rw [portOutput?, last_readChain, if_neg (by omega), Option.map_some, place, portOutput]

end Bank

/-- The read ports of a memory with rows are added without failure. -/
theorem Design.addPort_eq
    {bank : Bank}
    (rows : 1 ≤ bank.geometry.size)
    (memory : Nat) :
    addPort bank memory = fun port =>
      addNode (.readPort memory port (bank.portBits port) (bank.portOutput port)) := by
  funext port
  rw [addPort, Bank.portOutput?_eq rows]

/-! ## Wires of nodes -/

/-- The wires of a part that stands further on. -/
def Part.wiresAt (part : Part) (base : Nat) : List (Color × List Endpoint) :=
  part.wires.map fun wire => (wire.1, wire.2.map (·.shift base))

/-- The wires between the entities of a node. -/
def NodeKind.wires : NodeKind → List (Color × List Endpoint)
  | gate _ _ _ first => (gatePart transformer).wiresAt first
  | mux _ _ _ first => muxPart.wiresAt first
  | memory bank => (Bank.part bank.geometry).wiresAt bank.first
  | input .. | literal _ | tap _ | output .. | readPort .. => []

namespace Design

open Relation

variable {design later : Design}

/-- A wire that belongs to a design. -/
def Owns (design : Design) (wire : Color × List Endpoint) : Prop :=
  ∃ id, id < design.nodes.size ∧
    (wire ∈ (design.node id).kind.wires ∨ design.Supply id wire)

theorem Grows.owns
    (grows : Grows design later)
    (formed : design.Formed)
    {wire : Color × List Endpoint}
    (owned : design.Owns wire) :
    later.Owns wire := by
  obtain ⟨id, inRange, inside | supplied⟩ := owned
  · refine ⟨id, Nat.lt_of_lt_of_le inRange grows.size_le, .inl ?_⟩
    rw [grows.kind_eq inRange]
    exact inside
  · exact ⟨id, Nat.lt_of_lt_of_le inRange grows.size_le, .inr (grows.supply formed supplied)⟩

/-- The networks are made of wires of the design, and a node that is done has all of its own. -/
structure Woven (design : Design) : Prop where
  spanned : ∃ wires, design.board.Spans wires ∧ ∀ wire ∈ wires, design.Owns wire
  inside :
    ∀ id, id < design.nodes.size →
      ∀ wire ∈ (design.node id).kind.wires, Carries design.board wire
  settled : ∀ id, (design.node id).wiring = .done none → design.Settled id

/-- A node whose inputs are settled stays so. -/
theorem Settled.grows
    (formed : design.Formed)
    (grows : Grows design later)
    (joined :
      ∀ {color first second},
        design.board.Joined color first second → later.board.Joined color first second)
    {id : Nat}
    (inRange : id < design.nodes.size)
    (settled : design.Settled id) :
    later.Settled id where
  resolved request asked := by
    obtain ⟨producer, point, resolved⟩ :=
      settled.resolved request ((grows.requests_iff inRange).mp asked)
    exact ⟨producer, point, grows.resolves formed resolved⟩
  carried wire supplied := by
    obtain ⟨planned, laid, asked, resolved⟩ := supplied
    rw [grows.kind_eq inRange] at planned
    obtain ⟨producer, point, before⟩ :=
      settled.resolved _ ⟨_, planned, List.mem_of_getElem? asked⟩
    have sameAnswer := (grows.resolves formed before).unique resolved
    rw [← sameAnswer.2]
    exact (settled.carried _ (.tie planned laid asked before)).mono joined

/-- A settled node refers to nothing more when a design grows. -/
theorem Grows.refers_of_settled
    (grows : Grows design later)
    (formed : design.Formed)
    {id target : Nat}
    (inRange : id < design.nodes.size)
    (settled : design.Settled id)
    (refers : later.Refers id target) :
    design.Refers id target := by
  obtain ⟨request, producer, asked, found, rfl⟩ := refers
  have askedBefore := (grows.requests_iff inRange).mp asked
  obtain ⟨before, point, resolved⟩ := settled.resolved request askedBefore
  have same := Table.producer_unique (grows.find?_eq resolved.1) found
  subst same
  exact ⟨request, before, askedBefore, resolved.1,
    grows.wiredNode_eq (formed.registered resolved.1)⟩

namespace Woven

/-- What is left to show when a design grows. -/
theorem of_grows
    (formed : design.Formed)
    (woven : design.Woven)
    (grows : Grows design later)
    (joined :
      ∀ {color first second},
        design.board.Joined color first second → later.board.Joined color first second)
    (spanned : ∃ wires, later.board.Spans wires ∧ ∀ wire ∈ wires, later.Owns wire)
    (insideNew :
      ∀ id, design.nodes.size ≤ id → id < later.nodes.size →
        ∀ wire ∈ (later.node id).kind.wires, Carries later.board wire)
    (settledNew :
      ∀ id, (later.node id).wiring = .done none →
        (design.node id).wiring = .done none ∨ later.Settled id) :
    later.Woven where
  spanned := spanned
  inside id inRange wire member := by
    by_cases known : id < design.nodes.size
    · rw [grows.kind_eq known] at member
      exact (woven.inside id known wire member).mono joined
    · exact insideNew id (by omega) inRange wire member
  settled id done := by
    rcases settledNew id done with before | settled
    · exact (woven.settled id before).grows formed grows joined
        (inRange_of_wiring (by simp [before]))
    · exact settled

theorem spanned_of_wires_eq
    (formed : design.Formed)
    (woven : design.Woven)
    (grows : Grows design later)
    (same : later.board.toWires = design.board.toWires) :
    ∃ wires, later.board.Spans wires ∧ ∀ wire ∈ wires, later.Owns wire := by
  obtain ⟨wires, spans, owned⟩ := woven.spanned
  exact ⟨wires, spans.of_wires_eq same, fun wire member => grows.owns formed (owned wire member)⟩

theorem mark
    (formed : design.Formed)
    (woven : design.Woven)
    {id : Nat}
    {wiring : Wiring}
    (settled : wiring = .done none → design.Settled id) :
    (design.mark id wiring).Woven := by
  have grows := grows_mark design id wiring
  refine of_grows formed woven grows (fun shared => shared)
    (woven.spanned_of_wires_eq formed grows rfl) ?_ ?_
  · intro other outside inRange
    rw [size_mark] at inRange
    omega
  · intro other done
    rcases wiring_of_mark (by simp) done with before | ⟨rfl, inRange, isDone⟩
    · exact .inl before
    · exact .inr ((settled isDone).grows formed grows (fun shared => shared) inRange)

/-- A part brings the wires of its node. -/
theorem push
    (formed : design.Formed)
    (woven : design.Woven)
    {part : Part}
    {kind : NodeKind}
    (wires : kind.wires = part.wiresAt design.board.size) :
    (design.push part kind).Woven := by
  have grows := grows_push design part kind
  obtain ⟨laid, spans, owned⟩ := woven.spanned
  have spansNow := spans.install part
  refine of_grows formed woven grows ?_ ⟨_, spansNow, ?_⟩ ?_ ?_
  · exact spans.joined_install part
  · intro wire member
    rcases List.mem_append.mp member with before | added
    · exact grows.owns formed (owned wire before)
    · refine ⟨design.nodes.size, by simp, .inl ?_⟩
      rw [node_push, if_pos rfl, wires]
      exact added
  · intro id outside inRange wire member
    rw [size_push] at inRange
    rw [node_push, if_pos (by omega), wires] at member
    intro first firstMember second secondMember
    exact spansNow.joined_of_mem (List.mem_append_right _ member) firstMember secondMember
  · intro id done
    rw [node_push] at done
    split at done
    · cases done
    · exact .inl done

/-- Registering a producer for a vector that has none changes no network. -/
theorem enter
    (formed : design.Formed)
    (woven : design.Woven)
    {bits : List Bit}
    (missing : design.table.find? bits = none)
    (node : Option Nat) :
    (design.enter bits node).Woven := by
  have grows := grows_enter missing node
  refine of_grows formed woven grows (fun shared => shared)
    (woven.spanned_of_wires_eq formed grows rfl) ?_ (fun _ done => .inl done)
  intro id outside inRange
  exact absurd inRange (Nat.not_lt.mpr outside)

/-- Every step of a wiring keeps the networks to wires of the design. -/
theorem advance
    (formed : design.Formed)
    (woven : design.Woven)
    (step : Advance design later) :
    later.Woven := by
  have follows := step.follows formed
  cases step with
  | start inRange idle above =>
      exact woven.mark formed (by simp)
  | finish busy above settled underway =>
      exact woven.mark formed (fun _ => settled)
  | giveUp busy above asked unmet ordinary =>
      exact woven.mark formed (by simp)
  | literal busy asked missing constant counted =>
      refine enter (formed.push _ ?_) (woven.push formed rfl) missing _
      intro _ _ _ _ same
      cases same
  | lay busy supply =>
      refine of_grows formed woven follows.grows follows.joined ?_ ?_ (fun _ done => .inl done)
      · obtain ⟨wires, spans, owned⟩ := woven.spanned
        refine ⟨_, spans.wire _ _, ?_⟩
        intro wire member
        rcases List.mem_cons.mp member with rfl | before
        · have inRange := inRange_of_wiring (fun idle => Wiring.noConfusion (busy.symm.trans idle))
          exact ⟨_, inRange, .inr (follows.grows.supply formed supply)⟩
        · exact follows.grows.owns formed (owned wire before)
      · intro id outside inRange
        exact absurd inRange (Nat.not_lt.mpr outside)

theorem advances
    (formed : design.Formed)
    (woven : design.Woven)
    (steps : Advances design later) :
    later.Woven := by
  induction steps with
  | refl =>
      exact woven
  | tail before step inductionHypothesis =>
      exact inductionHypothesis.advance (Advances.follows formed before).formed step

end Woven

end Design

end CircuitNetwork
