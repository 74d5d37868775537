import CircuitNetwork.Proofs.Circuit.Value
import CircuitNetwork.Proofs.Synthesis.Sources

namespace CircuitNetwork.Design

/-!
# What consumers read

Every endpoint on the network of a core is in the core or an inlet that is fed
from it, perhaps through further inlets. Inlets put nothing out, apart from the
terminals of outputs, which are silent. So a consumer reads the sum of what the
entities of the core put out, whatever else is wired to the same network.
-/

open Finset

variable {design : Design} {feeds : List Feed} {color : Color} {core : List Endpoint}

/-- An endpoint is in a core or takes its values from there. -/
inductive Fed (feeds : List Feed) (color : Color) (core : List Endpoint) : Endpoint → Prop where
  | core
      {point : Endpoint}
      (member : point ∈ core) :
      Fed feeds color core point
  | feed
      {feed : Feed}
      (member : feed ∈ feeds)
      (sameColor : feed.color = color)
      (source : Fed feeds color core feed.source) :
      Fed feeds color core feed.sink

/-- No inlet is in a core. -/
theorem Grounded.not_mem_core
    (grounded : design.Grounded)
    {id : Nat}
    (inRange : id < design.nodes.size)
    (isCore : (design.node id).kind.IsCore color core)
    {other : Nat}
    {point : Endpoint}
    (inlet : (design.node other).kind.Inlet color point) :
    point ∉ core := by
  intro member
  have same : other = id := grounded.apart (inRange_of_inlet inlet) inRange inlet.mem_entities
    (isCore.inside point member)
  exact isCore.dry point (same ▸ inlet) member

/-- No wire inside a node leads to an inlet of its color. -/
theorem Grounded.not_inlet_of_mem_innerWires
    (grounded : design.Grounded)
    {points : List Endpoint}
    (inside : (color, points) ∈ design.innerWires)
    {point : Endpoint}
    (member : point ∈ points)
    {other : Nat} :
    ¬(design.node other).kind.Inlet color point := by
  intro inlet
  obtain ⟨id, inRange, wire⟩ := mem_innerWires.mp inside
  have rows := (grounded.stands inRange).hasRows
  have same : other = id := grounded.apart (inRange_of_inlet inlet) inRange inlet.mem_entities
    (NodeKind.mem_entities_of_mem_wires rows wire member)
  subst same
  exact inlet.not_mem rows wire member

/-- The network of a core has only endpoints that are fed from it. -/
theorem Laced.fed_of_joined
    (laced : design.Laced feeds)
    (grounded : design.Grounded)
    {id : Nat}
    (inRange : id < design.nodes.size)
    (isCore : (design.node id).kind.IsCore color core)
    {first second : Endpoint}
    (member : first ∈ core)
    (joined : design.board.Joined color first second) :
    Fed feeds color core second := by
  -- Being fed from the core is constant along every wire.
  have constant : Fed feeds color core first = Fed feeds color core second := by
    refine laced.spans.label_eq ?_ joined
    intro points laid one oneMember two twoMember
    rcases List.mem_append.mp laid with inside | outside
    · have onlyCore {point : Endpoint} (member : point ∈ points)
          (fed : Fed feeds color core point) : point ∈ core := by
        cases fed with
        | core member => exact member
        | feed feedMember sameColor source =>
            obtain ⟨owner, -, inlet⟩ := laced.inlet _ feedMember
            rw [sameColor] at inlet
            exact absurd inlet (grounded.not_inlet_of_mem_innerWires inside member)
      have closed {from_ to_ : Endpoint} (fromMember : from_ ∈ points) (toMember : to_ ∈ points)
          (fromCore : from_ ∈ core) : to_ ∈ core := by
        obtain ⟨owner, ownerInRange, wire⟩ := mem_innerWires.mp inside
        have rows := (grounded.stands ownerInRange).hasRows
        have same : owner = id := grounded.apart ownerInRange inRange
          (NodeKind.mem_entities_of_mem_wires rows wire fromMember) (isCore.inside _ fromCore)
        subst same
        exact isCore.closed _ wire rfl _ fromMember _ toMember fromCore
      exact propext ⟨fun fed => .core (closed oneMember twoMember (onlyCore oneMember fed)),
        fun fed => .core (closed twoMember oneMember (onlyCore twoMember fed))⟩
    · obtain ⟨feed, feedMember, shape⟩ := List.mem_map.mp outside
      obtain ⟨sameColor, samePoints⟩ := Prod.mk.inj shape
      have sourceIff : Fed feeds color core feed.sink ↔ Fed feeds color core feed.source := by
        constructor
        · intro fed
          generalize sinkEq : feed.sink = sink at fed
          cases fed with
          | core member =>
              obtain ⟨owner, -, inlet⟩ := laced.inlet feed feedMember
              rw [sameColor, sinkEq] at inlet
              exact absurd member (grounded.not_mem_core inRange isCore inlet)
          | @feed other otherMember otherColor source =>
              rw [laced.single feed feedMember other otherMember
                (sameColor.trans otherColor.symm) sinkEq]
              exact source
        · exact .feed feedMember sameColor
      rw [← samePoints] at oneMember twoMember
      simp only [List.mem_cons, List.not_mem_nil, or_false] at oneMember twoMember
      grind
  exact constant ▸ .core member

/-- Of the inlets only the terminals of outputs can put anything out. -/
theorem Grounded.terminal_of_inlet
    (grounded : design.Grounded)
    {id entity : Nat}
    (inlet : (design.node id).kind.Inlet color (design.board.output entity)) :
    ∃ bits, (design.node id).kind = .output bits entity := by
  have stands := grounded.stands (inRange_of_inlet inlet)
  have member := inlet.mem_entities
  have port := inlet.port_eq
  generalize (design.node id).kind = kind at stands member inlet
  simp only [Board.output] at port member
  cases kind with
  | output bits terminal => simp_all [NodeKind.entities]
  | memory bank =>
      have := stands.2 entity member
      simp_all
  | gate label a b first =>
      obtain ⟨transforms, ⟨comparator, compares⟩ | ⟨operator, operates⟩⟩ := stands <;>
        simp_all [NodeKind.entities, transformer, comparison, operation, Body.outputPort] <;> grind
  | mux a b select first =>
      obtain ⟨transforms, takesFirst, takesSecond⟩ := stands
      simp_all [NodeKind.entities, transformer, selector, Body.outputPort]
      grind
  | input | literal | tap | readPort => simp [NodeKind.Inlet, NodeKind.stages] at inlet

/-- The constants of outputs put nothing out. -/
def Muted (design : Design) (circuit : Circuit) : Prop :=
  ∀ id, id < design.nodes.size →
    ∀ bits terminal, (design.node id).kind = .output bits terminal →
      circuit.output terminal = SignalMap.empty

/-- Whoever is in a core or joined to it reads the sum of what its entities put out. -/
theorem Coherent.value_eq_sum
    (coherent : design.Coherent)
    {circuit : Circuit}
    (sound : circuit.Sound)
    (muted : design.Muted circuit)
    {id : Nat}
    (inRange : id < design.nodes.size)
    (isCore : (design.node id).kind.IsCore color core)
    {heads : Finset Nat}
    (outputs : ∀ entity, design.board.output entity ∈ core ↔ entity ∈ heads)
    {point : Endpoint}
    (anchored : ∃ start ∈ core, start = point ∨ design.board.Joined color start point)
    (joined : ∀ entity ∈ heads, design.board.Joined color (design.board.output entity) point)
    (signal : Signal) :
    circuit.value design.board point color signal =
      ∑ entity ∈ heads, Frame.count (circuit.output entity) signal := by
  obtain ⟨formed, grounded, feeds, laced⟩ := coherent
  rw [Circuit.value_eq_sum sound formed.tidy]
  refine Finset.sum_congr_of_eq_on_inter ?_ ?_ fun _ _ _ => rfl
  · intro entity isSource notHead
    obtain ⟨start, startMember, toPoint⟩ := anchored
    simp only [Circuit.sources, mem_filter, List.mem_toFinset] at isSource
    have across : design.board.Joined color start (design.board.output entity) := by
      rcases toPoint with rfl | startJoined
      · exact isSource.2.symm
      · exact startJoined.trans isSource.2.symm
    have fed := laced.fed_of_joined grounded inRange isCore startMember across
    generalize outputEq : design.board.output entity = output at fed
    cases fed with
    | core member =>
        rw [← outputEq] at member
        exact absurd ((outputs entity).mp member) notHead
    | feed feedMember sameColor source =>
        obtain ⟨owner, -, inlet⟩ := laced.inlet _ feedMember
        rw [← outputEq] at inlet
        obtain ⟨bits, isOutput⟩ := grounded.terminal_of_inlet inlet
        rw [muted owner (inRange_of_inlet inlet) bits entity isOutput, Frame.count_empty]
  · intro entity isHead notSource
    have absent : entity ∉ circuit.members := by
      intro present
      apply notSource
      simp only [Circuit.sources, mem_filter, List.mem_toFinset]
      exact ⟨present, joined entity isHead⟩
    rw [Circuit.output_eq_empty absent, Frame.count_empty]

/-- The wires inside a node are laid. -/
theorem Laced.joined_inner
    (laced : design.Laced feeds)
    {id : Nat}
    (inRange : id < design.nodes.size)
    (points : List Endpoint)
    (inside : (color, points) ∈ (design.node id).kind.wires)
    {first second : Endpoint}
    (firstMember : first ∈ points)
    (secondMember : second ∈ points) :
    design.board.Joined color first second :=
  laced.spans.joined_of_mem (List.mem_append_left _ (mem_innerWires.mpr ⟨id, inRange, inside⟩))
    firstMember secondMember

/-- The entities that put the value of a node out onto wires of a color. -/
def heads (design : Design) (color : Color) (id : Nat) : Finset Nat :=
  match (design.node id).kind, color with
  | .input _ constant, _ | .literal constant, _ => {constant}
  | .gate _ _ _ first, _ => {first + 1}
  | .mux _ _ _ first, .red => {first + 1, first + 2}
  | .mux _ _ _ first, .green => {first + 1}
  | .readPort memory index .., _ =>
      match (design.node memory).kind with
      | .memory bank => (range bank.geometry.size).image fun row =>
          bank.first + Bank.readAt bank.geometry index row
      | _ => ∅
  | .tap _, _ | .output .., _ | .memory _, _ => ∅

/-- A core whose entities are the heads of a node, all of them joined to an endpoint. -/
structure Headed (design : Design) (color : Color) (heads : Finset Nat) (point : Endpoint) :
    Prop where
  core :
    ∃ id core, id < design.nodes.size ∧ (design.node id).kind.IsCore color core ∧
      ∀ entity, design.board.output entity ∈ core ↔ entity ∈ heads
  nonempty : heads.Nonempty
  joined :
    ∀ entity ∈ heads,
      design.board.output entity = point ∨
        design.board.Joined color (design.board.output entity) point

theorem headed_single
    {id : Nat}
    (inRange : id < design.nodes.size)
    {entity : Nat}
    {port : Port}
    (isCore : (design.node id).kind.IsCore color [⟨entity, port⟩])
    (outputPort : (design.board.entity entity).body.outputPort = port) :
    design.Headed color {entity} ⟨entity, port⟩ where
  core := ⟨id, _, inRange, isCore, by
    intro other
    simp only [List.mem_singleton, mem_singleton, Board.output, Endpoint.mk.injEq]
    exact ⟨fun both => both.1, fun same => ⟨same, same ▸ outputPort⟩⟩⟩
  nonempty := singleton_nonempty entity
  joined other member := by
    rw [mem_singleton] at member
    subst member
    exact .inl (by rw [Board.output, outputPort])

/-- Red wires carry what both deciders of a multiplexer put out. -/
theorem Coherent.headed_mux
    (coherent : design.Coherent)
    {id : Nat}
    (inRange : id < design.nodes.size)
    {a b select : List Bit}
    {first : Nat}
    (isMux : (design.node id).kind = .mux a b select first) :
    design.Headed .red {first + 1, first + 2} ⟨first + 1, .two⟩ := by
  obtain ⟨-, grounded, feeds, laced⟩ := coherent
  have stands := grounded.stands inRange
  rw [isMux] at stands
  obtain ⟨-, firstBody, secondBody⟩ := stands
  have firstPort : (design.board.entity (first + 1)).body.outputPort = .two := by
    rw [firstBody]
    rfl
  have secondPort : (design.board.entity (first + 2)).body.outputPort = .two := by
    rw [secondBody]
    rfl
  refine ⟨⟨id, _, inRange, isMux ▸ NodeKind.isCore_mux_red a b select first, ?_⟩,
    insert_nonempty _ _, ?_⟩
  · intro entity
    simp only [List.mem_cons, List.not_mem_nil, or_false, mem_insert, mem_singleton, Board.output,
      Endpoint.mk.injEq]
    grind
  · intro entity member
    simp only [mem_insert, mem_singleton] at member
    rcases member with rfl | rfl
    · exact .inl (by rw [Board.output, firstPort])
    · refine .inr (laced.joined_inner inRange [⟨first + 1, .two⟩, ⟨first + 2, .two⟩] ?_ ?_ ?_)
      · simp [isMux, NodeKind.wires, Part.wiresAt, muxPart, Endpoint.shift]
      · simp [Board.output, secondPort]
      · simp

/-- The readers of a port are joined in both colors. -/
theorem Laced.joined_reader
    (laced : design.Laced feeds)
    {id : Nat}
    (inRange : id < design.nodes.size)
    {bank : Bank}
    (isMemory : (design.node id).kind = .memory bank)
    {port : Nat}
    (portInRange : port < bank.geometry.readPorts)
    (color : Color)
    (row steps : Nat)
    (rowInRange : row + 1 + steps < bank.geometry.size) :
    design.board.Joined color ⟨bank.first + Bank.readAt bank.geometry port row, .two⟩
      ⟨bank.first + Bank.readAt bank.geometry port (row + 1 + steps), .two⟩ := by
  have chained (other : Nat) (otherInRange : other + 1 < bank.geometry.size) :
      design.board.Joined color ⟨bank.first + Bank.readAt bank.geometry port other, .two⟩
        ⟨bank.first + Bank.readAt bank.geometry port (other + 1), .two⟩ := by
    refine laced.joined_inner inRange [⟨bank.first + _, .two⟩, ⟨bank.first + _, .two⟩] ?_
      List.mem_cons_self (List.mem_cons_of_mem _ List.mem_cons_self)
    rw [isMemory]
    exact List.mem_map.mpr ⟨_, Bank.chain_mem_wires portInRange otherInRange color, rfl⟩
  induction steps with
  | zero => exact chained row rowInRange
  | succ steps inductionHypothesis =>
      exact (inductionHypothesis (by omega)).trans (chained (row + 1 + steps) rowInRange)

/-- Wires of both colors carry what the readers of a port put out. -/
theorem Coherent.headed_readPort
    (coherent : design.Coherent)
    {id : Nat}
    (inRange : id < design.nodes.size)
    {bank : Bank}
    (isMemory : (design.node id).kind = .memory bank)
    {port : Nat}
    (portInRange : port < bank.geometry.readPorts)
    (color : Color) :
    design.Headed color
      ((range bank.geometry.size).image fun row =>
        bank.first + Bank.readAt bank.geometry port row)
      (bank.portOutput port) := by
  obtain ⟨-, grounded, feeds, laced⟩ := coherent
  have stands := grounded.stands inRange
  rw [isMemory] at stands
  obtain ⟨rows, outputPorts⟩ := stands
  have output {row : Nat} (rowInRange : row < bank.geometry.size) :
      design.board.output (bank.first + Bank.readAt bank.geometry port row) =
        ⟨bank.first + Bank.readAt bank.geometry port row, .two⟩ := by
    have present : (Role.reader port row).In bank.geometry := ⟨portInRange, rowInRange⟩
    have outputPort := outputPorts _ (Bank.mem_entities present trivial .two)
    exact congrArg (Endpoint.mk _) outputPort
  have isCore := NodeKind.isCore_readerPoints rows portInRange color
  rw [← isMemory] at isCore
  refine ⟨⟨id, _, inRange, isCore, ?_⟩, ?_, ?_⟩
  · intro entity
    simp only [Bank.readerPoints, List.mem_map, List.mem_range, mem_image, mem_range]
    constructor
    · rintro ⟨row, rowInRange, same⟩
      exact ⟨row, rowInRange, congrArg Endpoint.entity same⟩
    · rintro ⟨row, rowInRange, rfl⟩
      exact ⟨row, rowInRange, (output rowInRange).symm⟩
  · exact (nonempty_range_iff.mpr (by omega)).image _
  · intro entity member
    simp only [mem_image, mem_range] at member
    obtain ⟨row, rowInRange, rfl⟩ := member
    have last : bank.portOutput port =
        ⟨bank.first + Bank.readAt bank.geometry port (bank.geometry.size - 1), .two⟩ := by
      simp only [Bank.portOutput, Bank.readAt, Endpoint.mk.injEq, and_true]
      omega
    rw [output rowInRange, last]
    by_cases isLast : row = bank.geometry.size - 1
    · exact .inl (by rw [← isLast])
    · have joined := laced.joined_reader inRange isMemory portInRange color row
        (bank.geometry.size - 2 - row) (by omega)
      rw [show row + 1 + (bank.geometry.size - 2 - row) = bank.geometry.size - 1 by omega] at joined
      exact .inr joined

/-- A node with a value of its own puts it out through its heads. -/
theorem Coherent.headed
    (coherent : design.Coherent)
    {id : Nat}
    (inRange : id < design.nodes.size)
    (produces : (design.node id).kind.isProducer)
    {point : Endpoint}
    (outlet : (design.node id).kind.outlet = some point)
    (color : Color) :
    design.Headed color (design.heads color id) point := by
  have stands := coherent.grounded.stands inRange
  unfold heads
  cases isKind : (design.node id).kind with
  | input bits constant =>
      rw [isKind] at outlet stands
      cases outlet
      exact headed_single inRange (isKind ▸ NodeKind.isCore_input bits constant color)
        (by rw [stands]; rfl)
  | literal constant =>
      rw [isKind] at outlet stands
      cases outlet
      obtain ⟨count, body⟩ := stands
      exact headed_single inRange (isKind ▸ NodeKind.isCore_literal constant color)
        (by rw [body]; rfl)
  | gate label a b first =>
      rw [isKind] at outlet stands
      cases outlet
      refine headed_single inRange (isKind ▸ NodeKind.isCore_gate label a b first color) ?_
      obtain ⟨-, ⟨comparator, body⟩ | ⟨operator, body⟩⟩ := stands
      · rw [body]
        rfl
      · rw [body]
        rfl
  | mux a b select first =>
      rw [isKind] at outlet stands
      cases outlet
      cases color with
      | red => exact coherent.headed_mux inRange isKind
      | green =>
          exact headed_single inRange (isKind ▸ NodeKind.isCore_mux_green a b select first)
            (by rw [stands.2.1]; rfl)
  | readPort memory index bits shown =>
      rw [isKind] at outlet
      cases outlet
      obtain ⟨bank, isMemory, portInRange, rfl⟩ := coherent.grounded.ports inRange isKind
      have memoryInRange := inRange_of_kind_eq isMemory rfl
      simp only [isMemory]
      exact coherent.headed_readPort memoryInRange isMemory portInRange color
  | tap | output | memory =>
      rw [isKind] at produces
      cases produces

/-- Whoever is joined to the outlet of a node reads the sum over its heads. -/
theorem Coherent.value_of_outlet
    (coherent : design.Coherent)
    {circuit : Circuit}
    (sound : circuit.Sound)
    (muted : design.Muted circuit)
    {id : Nat}
    (inRange : id < design.nodes.size)
    (produces : (design.node id).kind.isProducer)
    {point consumer : Endpoint}
    (outlet : (design.node id).kind.outlet = some point)
    (joined : design.board.Joined color point consumer)
    (signal : Signal) :
    circuit.value design.board consumer color signal =
      ∑ entity ∈ design.heads color id, Frame.count (circuit.output entity) signal := by
  obtain ⟨⟨owner, core, ownerInRange, isCore, outputs⟩, someHead, toPoint⟩ :=
    coherent.headed inRange produces outlet color
  have headJoined : ∀ entity ∈ design.heads color id,
      design.board.Joined color (design.board.output entity) consumer := by
    intro entity isHead
    rcases toPoint entity isHead with same | across
    · rw [same]
      exact joined
    · exact across.trans joined
  obtain ⟨head, isHead⟩ := someHead
  exact coherent.value_eq_sum sound muted ownerInRange isCore outputs
    ⟨_, (outputs head).mpr isHead, .inr (headJoined head isHead)⟩ headJoined signal

end CircuitNetwork.Design
