import CircuitNetwork.Proofs.Computation
import CircuitNetwork.Proofs.Synthesis.Design
import Mathlib.Data.Finset.Card

namespace CircuitNetwork.Design

/-!
# Runs of the lazy wiring

Wiring a node takes a design through a sequence of elementary steps: a node is
begun, a literal is made for a request, a wire is laid, and a node that was begun
is finished or given up. Each step says what was true when it was taken, so that
properties of a wiring follow from properties of the steps, without going through
the recursion again.
-/

open Relation

/-- A node asks for the producer of a bit vector. -/
def Requests (design : Design) (id : Nat) (request : Request) : Prop :=
  ∃ stage ∈ (design.node id).kind.stages, request ∈ stage.requests

/-- A request has been given a producer with an endpoint, of the kind that is asked for. -/
def Resolves
    (design : Design)
    (request : Request)
    (producer : Nat)
    (point : Endpoint) :
    Prop :=
  design.table.find? request.bits = some (some producer) ∧
    (design.node producer).kind.outlet = some point ∧
    (request.fromInput → (design.node producer).kind.isInput)

/-- Wiring one node asks for the wiring of another one. -/
def Refers (design : Design) (id target : Nat) : Prop :=
  ∃ request producer,
    design.Requests id request ∧
      design.table.find? request.bits = some (some producer) ∧
      target = design.wiredNode producer

/-- The wires from the producers of the inputs of a node. -/
inductive Supply (design : Design) (id : Nat) : Color × List Endpoint → Prop where
  | tie
      {stage : Stage}
      {tie : Tie}
      {request : Request}
      {producer : Nat}
      {point : Endpoint}
      (planned : stage ∈ (design.node id).kind.stages)
      (laid : tie ∈ stage.ties)
      (asked : stage.requests[tie.source]? = some request)
      (resolved : design.Resolves request producer point) :
      Supply design id (tie.color, [point, tie.sink])

/-- The endpoints of a wire are on one network. -/
def Carries (board : Board) (wire : Color × List Endpoint) : Prop :=
  ∀ first ∈ wire.2, ∀ second ∈ wire.2, board.Joined wire.1 first second

/-- All inputs of a node have producers and wires from them. -/
structure Settled (design : Design) (id : Nat) : Prop where
  resolved :
    ∀ request, design.Requests id request →
      ∃ producer point, design.Resolves request producer point
  carried : ∀ wire, design.Supply id wire → Carries design.board wire

/-- The wiring of a node has been begun and did not fail. -/
def Underway (design : Design) (id : Nat) : Prop :=
  (design.node id).wiring = .busy ∨ (design.node id).wiring = .done none

/-- There is no producer of a bit vector yet, but a literal can be made for it. -/
def Makeable (design : Design) (bits : List Bit) : Prop :=
  design.table.find? bits = none ∧ bits.all (·.isConst) ∧ ∃ count, literalCount bits = .ok count

/-- A request has a producer whose wiring did not fail, or it can be given one. -/
def Answerable (design : Design) (request : Request) : Prop :=
  (∃ producer point,
    design.Resolves request producer point ∧
      ∀ failure, (design.node (design.wiredNode producer)).wiring ≠ .done (some failure)) ∨
    design.Makeable request.bits

/-- No literal is made for a vector with a producer. -/
theorem not_makeable
    {design : Design}
    {bits : List Bit}
    {node : Option Nat}
    (found : design.table.find? bits = some node) :
    ¬design.Makeable bits := by
  rintro ⟨missing, -⟩
  rw [missing] at found
  cases found

/-- A design whose table names only nodes that exist, and where wirings failed only in ways that are
answers. -/
structure Formed (design : Design) : Prop where
  tidy : design.board.Tidy
  known : ∀ {bits}, design.table.find? bits ≠ some none
  registered :
    ∀ {bits id}, design.table.find? bits = some (some id) → id < design.nodes.size
  memories :
    ∀ {id memory index bits point},
      (design.node id).kind = .readPort memory index bits point → memory < design.nodes.size
  ordinary :
    ∀ {id failure},
      (design.node id).wiring = .done (some failure) → failure.cause.isOrdinary

/-- A design with a new literal, registered for its bits. -/
def withLiteral (design : Design) (bits : List Bit) (count : Int32) : Design :=
  (design.push ⟨[.ofCount count], []⟩ (.literal design.board.size)).enter bits
    (some design.nodes.size)

/-- What can happen while nodes are wired. -/
inductive Advance (design : Design) : Design → Prop where
  | start
      {id : Nat}
      (inRange : id < design.nodes.size)
      (idle : (design.node id).wiring = .idle)
      (above :
        ∀ other, (design.node other).wiring = .busy → TransGen design.Refers other id) :
      Advance design (design.mark id .busy)
  | literal
      {id : Nat}
      {request : Request}
      {count : Int32}
      (busy : (design.node id).wiring = .busy)
      (asked : design.Requests id request)
      (missing : design.table.find? request.bits = none)
      (constant : request.bits.all (·.isConst))
      (counted : literalCount request.bits = .ok count) :
      Advance design (design.withLiteral request.bits count)
  | lay
      {id : Nat}
      {wire : Color × List Endpoint}
      (busy : (design.node id).wiring = .busy)
      (supply : design.Supply id wire) :
      Advance design { design with board := design.board.wire wire.1 wire.2 }
  | finish
      {id : Nat}
      (busy : (design.node id).wiring = .busy)
      (above :
        ∀ other, (design.node other).wiring = .busy → ReflTransGen design.Refers other id)
      (settled : design.Settled id)
      (underway : ∀ target, design.Refers id target → design.Underway target) :
      Advance design (design.mark id (.done none))
  | giveUp
      {id : Nat}
      {request : Request}
      {failure : Failure}
      (busy : (design.node id).wiring = .busy)
      (above :
        ∀ other, (design.node other).wiring = .busy → ReflTransGen design.Refers other id)
      (asked : design.Requests id request)
      (unmet : ¬design.Answerable request)
      (ordinary : failure.cause.isOrdinary) :
      Advance design (design.mark id (.done (some failure)))

/-- A sequence of steps. -/
abbrev Advances : Design → Design → Prop :=
  ReflTransGen Advance

variable {design grown : Design}

/-- In the place of a node that is not there stands a primary input that was not begun. -/
theorem node_of_outside
    {id : Nat}
    (outside : ¬id < design.nodes.size) :
    design.node id = default := by
  have missing : design.nodes[id]? = none := by simpa using outside
  simp only [node, Array.getD_eq_getD_getElem?, missing, Option.getD_none]

/-- A node that was begun is there. -/
theorem inRange_of_wiring
    {id : Nat}
    (begun : (design.node id).wiring ≠ .idle) :
    id < design.nodes.size := by
  by_contra outside
  rw [node_of_outside outside] at begun
  exact begun rfl

/-- A wiring that is recorded as begun was recorded before, or it is the one that was marked. -/
theorem wiring_of_mark
    {id other : Nat}
    {wiring recorded : Wiring}
    (begun : recorded ≠ .idle)
    (isRecorded : ((design.mark id wiring).node other).wiring = recorded) :
    (design.node other).wiring = recorded ∨
      other = id ∧ id < design.nodes.size ∧ wiring = recorded := by
  by_cases same : other = id
  · subst same
    have inRange : other < design.nodes.size := by
      rw [← size_mark design other wiring]
      exact inRange_of_wiring (isRecorded ▸ begun)
    rw [node_mark design inRange, if_pos rfl] at isRecorded
    exact .inr ⟨rfl, inRange, isRecorded⟩
  · rw [node_mark_of_ne design same] at isRecorded
    exact .inl isRecorded

/-- A node with inputs to wire is there. -/
theorem inRange_of_isWired
    {id : Nat}
    (wired : (design.node id).kind.isWired) :
    id < design.nodes.size := by
  by_contra outside
  rw [node_of_outside outside] at wired
  cases wired

theorem inRange_of_kind_eq
    {id : Nat}
    {kind : NodeKind}
    (isKind : (design.node id).kind = kind)
    (wired : kind.isWired) :
    id < design.nodes.size :=
  inRange_of_isWired (isKind ▸ wired)

/-- There is nothing to wire at a node that is not there. -/
theorem stages_of_outside
    {id : Nat}
    (outside : ¬id < design.nodes.size) :
    (design.node id).kind.stages = [] := by
  rw [node_of_outside outside]
  rfl

/-- Only a node that is there asks for something. -/
theorem Requests.inRange
    {id : Nat}
    {request : Request}
    (asked : design.Requests id request) :
    id < design.nodes.size := by
  by_contra outside
  obtain ⟨stage, planned, -⟩ := asked
  rw [stages_of_outside outside] at planned
  cases planned

/-- The node that is wired for a read port is there too. -/
theorem Formed.wiredNode_lt
    (formed : design.Formed)
    {id : Nat}
    (inRange : id < design.nodes.size) :
    design.wiredNode id < design.nodes.size := by
  unfold wiredNode
  split
  · rename_i kind
    exact formed.memories kind
  · exact inRange

/-- Wiring asks for the wiring of nodes that are there. -/
theorem Refers.inRange
    (formed : design.Formed)
    {id target : Nat}
    (refers : design.Refers id target) :
    target < design.nodes.size := by
  obtain ⟨request, producer, -, found, rfl⟩ := refers
  exact formed.wiredNode_lt (formed.registered found)

namespace Grows

theorem wiredNode_eq
    (grows : Grows design grown)
    {id : Nat}
    (inRange : id < design.nodes.size) :
    grown.wiredNode id = design.wiredNode id := by
  rw [wiredNode, wiredNode, grows.kind_eq inRange]

/-- A node goes on asking for the same vectors. -/
theorem requests_iff
    (grows : Grows design grown)
    {id : Nat}
    (inRange : id < design.nodes.size)
    {request : Request} :
    grown.Requests id request ↔ design.Requests id request := by
  rw [Requests, Requests, grows.kind_eq inRange]

/-- A request stays resolved in the same way. -/
theorem resolves
    (grows : Grows design grown)
    (formed : design.Formed)
    {request : Request}
    {producer : Nat}
    {point : Endpoint}
    (resolved : design.Resolves request producer point) :
    grown.Resolves request producer point := by
  obtain ⟨found, outlet, isInput⟩ := resolved
  have sameKind := grows.kind_eq (formed.registered found)
  refine ⟨grows.find?_eq found, ?_, ?_⟩
  · rw [sameKind, outlet]
  · rw [sameKind]
    exact isInput

/-- A node goes on referring to the same nodes. -/
theorem refers
    (grows : Grows design grown)
    (formed : design.Formed)
    {id target : Nat}
    (refers : design.Refers id target) :
    grown.Refers id target := by
  obtain ⟨request, producer, asked, found, rfl⟩ := refers
  exact ⟨request, producer, (grows.requests_iff asked.inRange).mpr asked, grows.find?_eq found,
    (grows.wiredNode_eq (formed.registered found)).symm⟩

/-- The wires that a node was to get stay the same. -/
theorem supply
    (grows : Grows design grown)
    (formed : design.Formed)
    {id : Nat}
    {wire : Color × List Endpoint}
    (supplied : design.Supply id wire) :
    grown.Supply id wire := by
  obtain ⟨planned, laid, asked, resolved⟩ := supplied
  have inRange : id < design.nodes.size :=
    Requests.inRange ⟨_, planned, List.mem_of_getElem? asked⟩
  rw [← grows.kind_eq inRange] at planned
  exact .tie planned laid asked (grows.resolves formed resolved)

end Grows

/-- The nodes with inputs that have not been begun. -/
def openNodes (design : Design) : Finset Nat :=
  (Finset.range design.nodes.size).filter fun id =>
    (design.node id).wiring = .idle ∧ (design.node id).kind.isWired

theorem mem_openNodes
    {id : Nat} :
    id ∈ design.openNodes ↔
      id < design.nodes.size ∧
        (design.node id).wiring = .idle ∧ (design.node id).kind.isWired := by
  simp [openNodes]

/-- A literal takes the place behind the other nodes. -/
theorem node_withLiteral
    (design : Design)
    (bits : List Bit)
    (count : Int32)
    (id : Nat) :
    (design.withLiteral bits count).node id =
      if id = design.nodes.size then { kind := .literal design.board.size } else design.node id :=
  node_push design ⟨[.ofCount count], []⟩ (.literal design.board.size) id

namespace Formed

/-- A read port may be added if its memory is there. -/
theorem push
    (formed : design.Formed)
    (part : Part)
    {kind : NodeKind}
    (memories :
      ∀ {memory index bits point},
        kind = .readPort memory index bits point → memory < design.nodes.size) :
    (design.push part kind).Formed where
  tidy := formed.tidy.install part
  known := formed.known
  registered found := by
    rw [size_push]
    exact Nat.lt_succ_of_lt (formed.registered found)
  memories {id memory index bits point} := by
    rw [node_push, size_push]
    split
    · exact fun same => Nat.lt_succ_of_lt (memories same)
    · exact fun same => Nat.lt_succ_of_lt (formed.memories same)
  ordinary {id failure} := by
    rw [node_push]
    split
    · intro failed
      cases failed
    · exact formed.ordinary

/-- A node that is there may be registered for any vector. -/
theorem enter
    (formed : design.Formed)
    (bits : List Bit)
    {id : Nat}
    (inRange : id < design.nodes.size) :
    (design.enter bits (some id)).Formed where
  tidy := formed.tidy
  known {asked} := by
    simp only [Design.enter, Table.find?_add]
    split
    · simp
    · exact formed.known
  registered {asked other} := by
    simp only [Design.enter, Table.find?_add]
    split
    · rintro ⟨rfl⟩
      exact inRange
    · exact formed.registered
  memories := formed.memories
  ordinary := formed.ordinary

theorem withLiteral
    (formed : design.Formed)
    (bits : List Bit)
    (count : Int32) :
    (design.withLiteral bits count).Formed := by
  refine (formed.push ⟨[.ofCount count], []⟩ ?_).enter bits (by simp)
  intro _ _ _ _ same
  cases same

end Formed

/-- What a sequence of steps keeps. -/
structure Follows (design later : Design) : Prop where
  grows : Grows design later
  formed : later.Formed
  done_eq :
    ∀ {id outcome},
      (design.node id).wiring = .done outcome → (later.node id).wiring = .done outcome
  joined :
    ∀ {color first second},
      design.board.Joined color first second → later.board.Joined color first second
  open_subset : later.openNodes ⊆ design.openNodes

namespace Follows

theorem refl
    (formed : design.Formed) :
    Follows design design :=
  ⟨Grows.refl design, formed, id, id, Finset.Subset.refl _⟩

theorem trans
    {later last : Design}
    (first : Follows design later)
    (second : Follows later last) :
    Follows design last where
  grows := first.grows.trans second.grows
  formed := second.formed
  done_eq settled := second.done_eq (first.done_eq settled)
  joined shared := second.joined (first.joined shared)
  open_subset := second.open_subset.trans first.open_subset

/-- A node that was begun may be recorded in another state, but not as idle or back from done. -/
theorem mark
    (formed : design.Formed)
    {id : Nat}
    (notDone : ∀ outcome, (design.node id).wiring ≠ .done outcome)
    {wiring : Wiring}
    (begun : wiring ≠ .idle)
    (ordinary : ∀ failure, wiring = .done (some failure) → failure.cause.isOrdinary) :
    Follows design (design.mark id wiring) where
  grows := grows_mark design id wiring
  formed :=
    { tidy := formed.tidy
      known := formed.known
      registered := fun found => by
        rw [size_mark]
        exact formed.registered found
      memories := fun kind => by
        rw [size_mark]
        rw [kind_mark] at kind
        exact formed.memories kind
      ordinary := fun {other failure} failed => by
        rcases wiring_of_mark (by simp) failed with before | ⟨-, -, isFailure⟩
        · exact formed.ordinary before
        · exact ordinary failure isFailure }
  done_eq {other outcome} settled := by
    have different : other ≠ id := by
      rintro rfl
      exact notDone outcome settled
    rw [node_mark_of_ne design different, settled]
  joined shared := shared
  open_subset := by
    intro other
    simp only [mem_openNodes, size_mark, kind_mark]
    rintro ⟨inRange, idle, wired⟩
    by_cases same : other = id
    · subst same
      simp only [node_mark design inRange, ↓reduceIte] at idle
      exact absurd idle begun
    · rw [node_mark_of_ne design same] at idle
      exact ⟨inRange, idle, wired⟩

/-- A wire parts no endpoints. -/
theorem wire
    (formed : design.Formed)
    (color : Color)
    (points : List Endpoint) :
    Follows design { design with board := design.board.wire color points } where
  grows := grows_wire design color points
  formed :=
    { tidy := formed.tidy.wire color points
      known := formed.known
      registered := formed.registered
      memories := formed.memories
      ordinary := formed.ordinary }
  done_eq settled := settled
  joined shared := (formed.tidy.joined_wire_iff color points _ _ _).mpr (.inl shared)
  open_subset := Finset.Subset.refl _

/-- A literal is not among the nodes that are still to be wired. -/
theorem withLiteral
    (formed : design.Formed)
    {bits : List Bit}
    (missing : design.table.find? bits = none)
    (count : Int32) :
    Follows design (design.withLiteral bits count) where
  grows := by
    let pushed := design.push ⟨[.ofCount count], []⟩ (.literal design.board.size)
    have stillMissing : pushed.table.find? bits = none := missing
    exact (grows_push design _ _).trans (grows_enter stillMissing _)
  formed := formed.withLiteral bits count
  done_eq {id outcome} settled := by
    have inRange : id < design.nodes.size := inRange_of_wiring (by simp [settled])
    rw [node_withLiteral, if_neg (Nat.ne_of_lt inRange), settled]
  joined shared := shared
  open_subset := by
    intro id
    simp only [mem_openNodes, node_withLiteral]
    split
    · rintro ⟨-, -, wired⟩
      cases wired
    · rintro ⟨inRange, idle, wired⟩
      exact ⟨by simp [Design.withLiteral, enter] at inRange; omega, idle, wired⟩

end Follows

/-- What one step keeps. -/
theorem Advance.follows
    (formed : design.Formed)
    {later : Design}
    (step : Advance design later) :
    Follows design later := by
  cases step with
  | start inRange idle above =>
      exact Follows.mark formed (by simp [idle]) (by simp) (by simp)
  | literal busy asked missing constant counted =>
      exact Follows.withLiteral formed missing _
  | lay busy supply =>
      exact Follows.wire formed _ _
  | finish busy above settled underway =>
      exact Follows.mark formed (by simp [busy]) (by simp) (by simp)
  | giveUp busy above asked unmet ordinary =>
      exact Follows.mark formed (by simp [busy]) (by simp) (by simp [ordinary])

/-- What all steps together keep. -/
theorem Advances.follows
    (formed : design.Formed)
    {later : Design}
    (steps : Advances design later) :
    Follows design later := by
  induction steps with
  | refl =>
      exact Follows.refl formed
  | tail _ step inductionHypothesis =>
      exact inductionHypothesis.trans (step.follows inductionHypothesis.formed)

/-- The same nodes are being wired. -/
def SameBusy (design later : Design) : Prop :=
  ∀ id, (later.node id).wiring = .busy ↔ (design.node id).wiring = .busy

end CircuitNetwork.Design
