import CircuitNetwork.Proofs.Arena
import CircuitNetwork.Proofs.Synthesis.Inlets

namespace CircuitNetwork

/-!
# Every inlet has one source

Each entity belongs to one node, and the wires from producers are laid only to the
inlets of nodes that have been begun. While a node is being wired its wires come
from the producers that the table names, and afterwards no more wires are laid to
it. So at most one endpoint is ever wired to an inlet in a color, whatever is
registered in the meantime.
-/

/-- The entities of a node are what its kind says. -/
def NodeKind.Stands (board : Board) : NodeKind → Prop
  | input _ constant => (board.entity constant).body = .ofCount 0
  | literal constant => ∃ count, (board.entity constant).body = .ofCount count
  | output _ terminal => (board.entity terminal).body = .ofFilters []
  | gate _ _ _ first =>
      (board.entity first).body = transformer ∧
        ((∃ comparator, (board.entity (first + 1)).body = comparison comparator) ∨
          ∃ operator, (board.entity (first + 1)).body = operation operator)
  | mux _ _ _ first =>
      (board.entity first).body = transformer ∧
        (board.entity (first + 1)).body = selector .equal .control 0 true .value ∧
        (board.entity (first + 2)).body = selector .notEqual .control 0 true .value
  | memory bank =>
      1 ≤ bank.geometry.size ∧
        ∀ entity ∈ (memory bank).entities, (board.entity entity).body.outputPort = .two
  | tap _ | readPort .. => True

namespace NodeKind.Stands

variable {board other : Board} {kind : NodeKind}

theorem hasRows
    (stands : kind.Stands board) :
    kind.HasRows := by
  cases kind with
  | memory bank => exact stands.1
  | _ => trivial

/-- Only the bodies of the node's own entities matter. -/
theorem of_body_eq
    (stands : kind.Stands board)
    (same : ∀ entity ∈ kind.entities, (other.entity entity).body = (board.entity entity).body) :
    kind.Stands other := by
  cases kind with
  | memory bank =>
      refine ⟨stands.1, fun entity member => ?_⟩
      rw [same entity member]
      exact stands.2 entity member
  | _ => simp_all [NodeKind.Stands, NodeKind.entities]

end NodeKind.Stands

/-- The entities of a part stand on the board in order. -/
theorem Board.body_install
    (board : Board)
    (part : Part)
    (place : Nat)
    {body : Body}
    (found : part.bodies[place]? = some body) :
    ((board.install part).entity (board.size + place)).body = body := by
  have stands : (board.install part).entity (board.size + place) = .ofBody body := by
    simp [Board.entity, Board.entities_install, Board.size, Array.getElem?_append_right, found]
  rw [stands, Entity.body_ofBody]

namespace Design

open Relation

variable {design later : Design}

/-- Each entity belongs to one node, of which it is what the kind says. A read port shows the output
of its memory. -/
structure Grounded (design : Design) : Prop where
  bounded :
    ∀ {id}, id < design.nodes.size →
      ∀ entity ∈ (design.node id).kind.entities, entity < design.board.size
  apart :
    ∀ {id other entity}, id < design.nodes.size → other < design.nodes.size →
      entity ∈ (design.node id).kind.entities → entity ∈ (design.node other).kind.entities →
        id = other
  stands : ∀ {id}, id < design.nodes.size → (design.node id).kind.Stands design.board
  ports :
    ∀ {id memory index bits point}, id < design.nodes.size →
      (design.node id).kind = .readPort memory index bits point →
        ∃ bank, (design.node memory).kind = .memory bank ∧
          index < bank.geometry.readPorts ∧ point = bank.portOutput index

namespace Grounded

/-- Only kinds and bodies matter. -/
theorem of_kind_eq
    (grounded : design.Grounded)
    (size_eq : later.nodes.size = design.nodes.size)
    (kind_eq : ∀ id, (later.node id).kind = (design.node id).kind)
    (board_size_eq : later.board.size = design.board.size)
    (body_eq : ∀ id, (later.board.entity id).body = (design.board.entity id).body) :
    later.Grounded where
  bounded := by
    simp only [size_eq, kind_eq, board_size_eq]
    exact grounded.bounded
  apart := by
    simp only [size_eq, kind_eq]
    exact grounded.apart
  stands := by
    simp only [size_eq, kind_eq]
    exact fun inRange => (grounded.stands inRange).of_body_eq fun entity _ => body_eq entity
  ports := by
    simp only [size_eq, kind_eq]
    exact grounded.ports

/-- A node may be added with a part that consists of its entities. -/
theorem push
    (grounded : design.Grounded)
    {part : Part}
    {kind : NodeKind}
    (entities : kind.entities = (List.range part.bodies.length).map (design.board.size + ·))
    (stands : kind.Stands (design.board.install part))
    (ports :
      ∀ {memory index bits point}, kind = .readPort memory index bits point →
        ∃ bank, memory < design.nodes.size ∧ (design.node memory).kind = .memory bank ∧
          index < bank.geometry.readPorts ∧ point = bank.portOutput index) :
    (design.push part kind).Grounded := by
  have grows := grows_push design part kind
  have node_new : (design.push part kind).node design.nodes.size = { kind := kind } := by
    rw [node_push, if_pos rfl]
  have inNew : ∀ entity ∈ kind.entities, design.board.size ≤ entity := by
    intro entity member
    rw [entities] at member
    obtain ⟨place, -, rfl⟩ := List.mem_map.mp member
    exact Nat.le_add_right _ _
  have cases_ {id : Nat} (inRange : id < (design.push part kind).nodes.size) :
      id < design.nodes.size ∨ id = design.nodes.size := by
    rw [size_push] at inRange
    omega
  constructor
  · intro id inRange entity member
    rcases cases_ inRange with before | rfl
    · rw [grows.kind_eq before] at member
      exact Nat.lt_of_lt_of_le (grounded.bounded before entity member) grows.entities_le
    · rw [node_new, entities] at member
      obtain ⟨place, inPart, rfl⟩ := List.mem_map.mp member
      simpa [Design.push, Board.size, Board.entities_install] using inPart
  · intro id other entity inRange otherInRange member otherMember
    rcases cases_ inRange with before | rfl <;> rcases cases_ otherInRange with otherBefore | rfl
    · rw [grows.kind_eq before] at member
      rw [grows.kind_eq otherBefore] at otherMember
      exact grounded.apart before otherBefore member otherMember
    · rw [grows.kind_eq before] at member
      rw [node_new] at otherMember
      have := grounded.bounded before entity member
      have := inNew entity otherMember
      omega
    · rw [grows.kind_eq otherBefore] at otherMember
      rw [node_new] at member
      have := grounded.bounded otherBefore entity otherMember
      have := inNew entity member
      omega
    · rfl
  · intro id inRange
    rcases cases_ inRange with before | rfl
    · rw [grows.kind_eq before]
      refine (grounded.stands before).of_body_eq fun entity member => ?_
      rw [grows.entity_eq (grounded.bounded before entity member)]
    · rw [node_new]
      exact stands
  · intro id memory index bits point inRange isPort
    rcases cases_ inRange with before | rfl
    · rw [grows.kind_eq before] at isPort
      obtain ⟨bank, isMemory, rest⟩ := grounded.ports before isPort
      have memoryInRange := inRange_of_kind_eq isMemory rfl
      exact ⟨bank, by rw [grows.kind_eq memoryInRange, isMemory], rest⟩
    · rw [node_new] at isPort
      obtain ⟨bank, memoryInRange, isMemory, rest⟩ := ports isPort
      exact ⟨bank, by rw [grows.kind_eq memoryInRange, isMemory], rest⟩

/-- A literal is added with its constant. -/
theorem withLiteral
    (grounded : design.Grounded)
    (bits : List Bit)
    (count : Int32) :
    (design.withLiteral bits count).Grounded := by
  have pushed : (design.push ⟨[.ofCount count], []⟩ (.literal design.board.size)).Grounded := by
    refine grounded.push rfl ⟨count, ?_⟩ (by intro _ _ _ _ same; cases same)
    exact design.board.body_install ⟨[.ofCount count], []⟩ 0 rfl
  exact pushed.of_kind_eq rfl (fun _ => rfl) rfl (fun _ => rfl)

/-- Every step of a wiring leaves each entity to its node. -/
theorem advance
    (grounded : design.Grounded)
    (step : Advance design later) :
    later.Grounded := by
  cases step with
  | start | finish | giveUp =>
      exact grounded.of_kind_eq (size_mark ..) (kind_mark design _ _) rfl (fun _ => rfl)
  | literal => exact grounded.withLiteral _ _
  | lay =>
      exact grounded.of_kind_eq rfl (fun _ => rfl) (by simp [Board.size])
        (fun _ => by simp [Board.entity])

theorem advances
    (grounded : design.Grounded)
    (steps : Advances design later) :
    later.Grounded := by
  induction steps with
  | refl =>
      exact grounded
  | tail _ step inductionHypothesis =>
      exact inductionHypothesis.advance step

end Grounded

theorem inRange_of_inlet
    {id : Nat}
    {color : Color}
    {point : Endpoint}
    (inlet : (design.node id).kind.Inlet color point) :
    id < design.nodes.size := by
  obtain ⟨stage, planned, -⟩ := inlet
  by_contra outside
  rw [node_of_outside outside] at planned
  cases planned

/-- An inlet belongs to one node. -/
theorem Grounded.inlet_unique
    (grounded : design.Grounded)
    {id other : Nat}
    {color otherColor : Color}
    {point : Endpoint}
    (inlet : (design.node id).kind.Inlet color point)
    (otherInlet : (design.node other).kind.Inlet otherColor point) :
    id = other :=
  grounded.apart (inRange_of_inlet inlet) (inRange_of_inlet otherInlet)
    inlet.mem_entities otherInlet.mem_entities

/-- A wire from a producer to an inlet. -/
structure Feed where
  color : Color
  source : Endpoint
  sink : Endpoint
  deriving Repr, DecidableEq

/-- The wire as it is laid. -/
def Feed.wire (feed : Feed) : Color × List Endpoint :=
  (feed.color, [feed.source, feed.sink])

/-- What a node asks for is wired from a producer to an inlet. -/
theorem Supply.exists_feed
    {id : Nat}
    {wire : Color × List Endpoint}
    (supply : design.Supply id wire) :
    ∃ feed : Feed, wire = feed.wire ∧ (design.node id).kind.Inlet feed.color feed.sink := by
  obtain ⟨planned, laid, asked, resolved⟩ := supply
  exact ⟨⟨_, _, _⟩, rfl, _, planned, _, laid, rfl, rfl⟩

/-- The table names one producer for an inlet. -/
theorem Supply.source_eq
    {id : Nat}
    {feed other : Feed}
    (supply : design.Supply id feed.wire)
    (otherSupply : design.Supply id other.wire)
    (sameColor : feed.color = other.color)
    (sameSink : feed.sink = other.sink) :
    feed.source = other.source := by
  obtain ⟨color, source, sink⟩ := feed
  obtain ⟨otherColor, otherSource, otherSink⟩ := other
  obtain ⟨planned, laid, asked, resolved⟩ := supply
  obtain ⟨otherPlanned, otherLaid, otherAsked, otherResolved⟩ := otherSupply
  have sameRequest :=
    NodeKind.request_eq_of_sink_eq planned otherPlanned laid otherLaid sameColor sameSink
  rw [asked, otherAsked] at sameRequest
  cases sameRequest
  exact (resolved.unique otherResolved).2

/-- The wires inside all nodes. -/
def innerWires (design : Design) : List (Color × List Endpoint) :=
  (List.range design.nodes.size).flatMap fun id => (design.node id).kind.wires

theorem mem_innerWires
    {wire : Color × List Endpoint} :
    wire ∈ design.innerWires ↔
      ∃ id, id < design.nodes.size ∧ wire ∈ (design.node id).kind.wires := by
  simp [innerWires]

/-- The wires of a design are those inside its nodes and those from producers to inlets of nodes
that were begun, one to each inlet. A node that is being wired has them from the producers in the
table. -/
structure Laced (design : Design) (feeds : List Feed) : Prop where
  spans : design.board.Spans (design.innerWires ++ feeds.map Feed.wire)
  inlet :
    ∀ feed ∈ feeds, ∃ id,
      (design.node id).wiring ≠ .idle ∧ (design.node id).kind.Inlet feed.color feed.sink
  single :
    ∀ feed ∈ feeds, ∀ other ∈ feeds,
      feed.color = other.color → feed.sink = other.sink → feed.source = other.source
  current :
    ∀ feed ∈ feeds, ∀ id, (design.node id).wiring = .busy →
      (design.node id).kind.Inlet feed.color feed.sink → design.Supply id feed.wire

namespace Laced

variable {feeds : List Feed}

theorem innerWires_eq
    (size_eq : later.nodes.size = design.nodes.size)
    (kind_eq : ∀ id, (later.node id).kind = (design.node id).kind) :
    later.innerWires = design.innerWires := by
  simp only [innerWires, size_eq, kind_eq]

/-- A node may be recorded as begun, or as no longer being wired. -/
theorem mark
    (laced : design.Laced feeds)
    (formed : design.Formed)
    (grounded : design.Grounded)
    {id : Nat}
    (inRange : id < design.nodes.size)
    {wiring : Wiring}
    (begun : wiring ≠ .idle)
    (fresh : wiring = .busy → (design.node id).wiring = .idle) :
    (design.mark id wiring).Laced feeds := by
  refine ⟨?_, ?_, laced.single, ?_⟩
  · rw [innerWires_eq (size_mark ..) (kind_mark design id wiring)]
    exact laced.spans
  · intro feed member
    obtain ⟨owner, ownerBegun, inlet⟩ := laced.inlet feed member
    refine ⟨owner, ?_, by rwa [kind_mark]⟩
    rw [node_mark design inRange]
    split
    · exact begun
    · exact ownerBegun
  · intro feed member asked busy inlet
    rw [kind_mark] at inlet
    rw [node_mark design inRange] at busy
    split at busy
    · -- The feeds so far lead to nodes that were begun, so none of them to this one.
      rename_i same
      obtain ⟨owner, ownerBegun, ownerInlet⟩ := laced.inlet feed member
      rw [grounded.inlet_unique ownerInlet inlet, same] at ownerBegun
      exact absurd (fresh busy) ownerBegun
    · exact (grows_mark design id wiring).supply formed
        (laced.current feed member asked busy inlet)

/-- A node may be added with the wires inside it. -/
theorem push
    (laced : design.Laced feeds)
    (formed : design.Formed)
    (part : Part)
    (kind : NodeKind)
    (wires : kind.wires = part.wiresAt design.board.size) :
    (design.push part kind).Laced feeds := by
  have grows := grows_push design part kind
  have inner : (design.push part kind).innerWires = design.innerWires ++ kind.wires := by
    simp only [innerWires, size_push, List.range_succ, List.flatMap_append, List.flatMap_singleton,
      node_push, ↓reduceIte]
    congr 1
    refine List.flatMap_congr fun id member => ?_
    rw [if_neg (Nat.ne_of_lt (List.mem_range.mp member))]
  refine ⟨?_, ?_, laced.single, ?_⟩
  · refine (laced.spans.install part).congr fun wire => ?_
    simp only [inner, wires, Part.wiresAt, List.mem_append]
    grind
  · intro feed member
    obtain ⟨owner, begun, inlet⟩ := laced.inlet feed member
    have inRange := inRange_of_inlet inlet
    refine ⟨owner, ?_, by rwa [grows.kind_eq inRange]⟩
    rwa [node_push, if_neg (Nat.ne_of_lt inRange)]
  · intro feed member id busy inlet
    have before : (design.node id).wiring = .busy := by
      rw [node_push] at busy
      split at busy
      · cases busy
      · exact busy
    rw [grows.kind_eq (inRange_of_wiring (by simp [before]))] at inlet
    exact grows.supply formed (laced.current feed member id before inlet)

/-- Another table may be used if nodes that are being wired find the same producers in it. -/
theorem withTable
    (laced : design.Laced feeds)
    {table : Table}
    (kept :
      ∀ id wire, (design.node id).wiring = .busy → design.Supply id wire →
        Supply { design with table := table } id wire) :
    Laced { design with table := table } feeds where
  spans := laced.spans
  inlet := laced.inlet
  single := laced.single
  current feed member id busy inlet := kept id _ busy (laced.current feed member id busy inlet)

/-- A wire may be laid for a node that is being wired. -/
theorem lay
    (laced : design.Laced feeds)
    (formed : design.Formed)
    (grounded : design.Grounded)
    {id : Nat}
    (busy : (design.node id).wiring = .busy)
    {feed : Feed}
    (supply : design.Supply id feed.wire)
    (inlet : (design.node id).kind.Inlet feed.color feed.sink) :
    Laced { design with board := design.board.wire feed.color [feed.source, feed.sink] }
      (feed :: feeds) := by
  have grows := grows_wire design feed.color [feed.source, feed.sink]
  have same (other : Feed) (member : other ∈ feeds) (sameColor : feed.color = other.color)
      (sameSink : feed.sink = other.sink) : feed.source = other.source := by
    refine supply.source_eq (laced.current other member id busy ?_) sameColor sameSink
    rwa [← sameColor, ← sameSink]
  constructor
  · refine (laced.spans.wire feed.color [feed.source, feed.sink]).congr fun wire => ?_
    change wire ∈ feed.wire :: (design.innerWires ++ _) ↔ wire ∈ design.innerWires ++ feed.wire :: _
    simp only [List.mem_cons, List.mem_append]
    grind
  · intro other member
    rcases List.mem_cons.mp member with rfl | before
    · exact ⟨id, fun idle => Wiring.noConfusion (busy.symm.trans idle), inlet⟩
    · exact laced.inlet other before
  · intro first firstMember second secondMember sameColor sameSink
    rcases List.mem_cons.mp firstMember with rfl | firstBefore <;>
      rcases List.mem_cons.mp secondMember with rfl | secondBefore
    · rfl
    · exact same second secondBefore sameColor sameSink
    · exact (same first firstBefore sameColor.symm sameSink.symm).symm
    · exact laced.single first firstBefore second secondBefore sameColor sameSink
  · intro other member asked askedBusy askedInlet
    apply grows.supply formed
    rcases List.mem_cons.mp member with rfl | before
    · rwa [← grounded.inlet_unique inlet askedInlet]
    · exact laced.current other before asked askedBusy askedInlet

/-- Every step of a wiring keeps the wires to one for each inlet. -/
theorem advance
    (laced : design.Laced feeds)
    (formed : design.Formed)
    (grounded : design.Grounded)
    (step : Advance design later) :
    ∃ more, later.Laced more := by
  cases step with
  | start inRange idle above =>
      exact ⟨feeds, laced.mark formed grounded inRange (by simp) (fun _ => idle)⟩
  | finish busy above settled underway =>
      exact ⟨feeds, laced.mark formed grounded (inRange_of_wiring (by simp [busy])) (by simp)
        (by simp)⟩
  | giveUp busy above asked unmet ordinary =>
      exact ⟨feeds, laced.mark formed grounded (inRange_of_wiring (by simp [busy])) (by simp)
        (by simp)⟩
  | @literal _ request count busy asked missing constant counted =>
      let pushed := design.push ⟨[.ofCount count], []⟩ (.literal design.board.size)
      have stillMissing : pushed.table.find? request.bits = none := missing
      have stillFormed : pushed.Formed := formed.push _ (by intro _ _ _ _ same; cases same)
      have pushedLaced : pushed.Laced feeds := laced.push formed _ _ rfl
      exact ⟨feeds, pushedLaced.withTable fun id wire _ =>
        (grows_enter stillMissing _).supply stillFormed⟩
  | lay busy supply =>
      obtain ⟨feed, rfl, inlet⟩ := supply.exists_feed
      exact ⟨feed :: feeds, laced.lay formed grounded busy supply inlet⟩

end Laced

/-- A design whose entities belong to its nodes and whose inlets have one source each. -/
structure Coherent (design : Design) : Prop where
  formed : design.Formed
  grounded : design.Grounded
  laced : ∃ feeds, design.Laced feeds

/-- Numbers and positions of entities do not matter. -/
theorem Coherent.withBoard
    (coherent : design.Coherent)
    {board : Board}
    (alike : design.board.Alike board) :
    Coherent { design with board := board } := by
  obtain ⟨formed, grounded, feeds, laced⟩ := coherent
  have keeps (id : Nat) (wire : Color × List Endpoint) (supply : design.Supply id wire) :
      Supply { design with board := board } id wire := by
    obtain ⟨planned, laid, asked, resolved⟩ := supply
    exact .tie planned laid asked resolved
  refine ⟨?_, grounded.of_kind_eq rfl (fun _ => rfl) alike.size_eq alike.body_eq, feeds, ?_⟩
  · exact
      { tidy := (laced.spans.of_wires_eq alike.wires_eq).tidy
        known := formed.known
        registered := formed.registered
        memories := formed.memories
        ordinary := formed.ordinary }
  · exact ⟨laced.spans.of_wires_eq alike.wires_eq, laced.inlet, laced.single,
      fun feed member id busy inlet => keeps id _ (laced.current feed member id busy inlet)⟩

theorem Coherent.advances
    (coherent : design.Coherent)
    (steps : Advances design later) :
    later.Coherent := by
  induction steps with
  | refl =>
      exact coherent
  | tail _ step inductionHypothesis =>
      obtain ⟨formed, grounded, feeds, laced⟩ := inductionHypothesis
      exact ⟨(step.follows formed).formed, grounded.advance step,
        laced.advance formed grounded step⟩

end Design

end CircuitNetwork
