import CircuitNetwork.Proofs.Memory.Networks

namespace CircuitNetwork

/-!
# Inlets and cores

The wires from producers end at the inlets of a node. An inlet belongs to an
entity of the node, no wire of its color inside the node leads to it, and only
one request of the node is wired to it.

A core consists of endpoints of a node that wires inside the node join to nothing
else, and none of which is an inlet. So whatever is wired to a core from outside
the node takes its values from there.
-/

namespace Role

variable {geometry : Geometry} {role other : Role}

/-- The entities of a memory itself come first. -/
theorem place_lt_entityCount
    (present : role.In geometry)
    (inner : role.Inner) :
    role.place geometry < Bank.entityCount geometry := by
  cases role with
  | pulse => simp only [place, Bank.entityCount]; omega
  | select row | latch row | hold row =>
      simp only [In, place, Bank.selectAt, Bank.latchAt, Bank.holdAt, Bank.entityCount]
        at present ⊢
      omega
  | decode port => exact portPlace_lt present (by omega : 0 < 1 + geometry.size)
  | reader port row =>
      rw [place, readAt_eq]
      exact portPlace_lt present.1 (by have := present.2; omega)
  | input index | terminal port => exact inner.elim

/-- An endpoint tells the role and the port. -/
theorem shift_point_inj
    {base : Nat}
    {port otherPort : Port}
    (present : role.In geometry)
    (otherPresent : other.In geometry)
    (same : (role.point geometry port).shift base = (other.point geometry otherPort).shift base) :
    role = other ∧ port = otherPort := by
  simp only [point, Endpoint.shift, Endpoint.mk.injEq, Nat.add_left_cancel_iff] at same
  refine ⟨?_, same.2⟩
  rw [← ofPlace_place present, same.1, ofPlace_place otherPresent]

/-- The stage in which the input of a role is wired. -/
def stage : Role → Nat
  | decode port => port + 1
  | _ => 0

/-- Which request of its stage is wired to the input of a role. -/
def source : Color → Role → Nat
  | .green, pulse => 1
  | _, select _ => 2
  | _, latch _ => 3
  | _, _ => 0

/-- The inputs of a memory that are wired to producers. -/
inductive Served (geometry : Geometry) : Color → Role → Prop where
  | pulse (color : Color) :
      Served geometry color pulse
  | select {row : Nat} (inRange : row < geometry.size) :
      Served geometry .red (select row)
  | latch {row : Nat} (inRange : row < geometry.size) :
      Served geometry .red (latch row)
  | decode {port : Nat} (inRange : port < geometry.readPorts) :
      Served geometry .red (decode port)

namespace Served

variable {color : Color}

theorem present
    (served : Served geometry color role) :
    role.In geometry := by
  cases served with
  | pulse => trivial
  | select inRange | latch inRange | decode inRange => exact inRange

theorem inner
    (served : Served geometry color role) :
    role.Inner := by
  cases served <;> trivial

/-- The wires inside a memory lead to none of these inputs. -/
theorem not_mem
    (served : Served geometry color role)
    {ends : List (Role × Port)}
    (wire : Wire geometry color ends)
    (inner : ∀ point ∈ ends, point.1.Inner) :
    (role, .one) ∉ ends := by
  cases wire with
  | clock | enable | address | data | readAddress => exact (inner _ List.mem_cons_self).elim
  | result => exact (inner _ (List.mem_cons_of_mem _ List.mem_cons_self)).elim
  | _ => cases served <;> simp

end Served

end Role

namespace Bank

open Role

variable {bank : Bank}

/-- The inputs of a memory in the order of its stages. -/
theorem served_of_tie
    {stage : Stage}
    {tie : Tie}
    (planned : stage ∈ bank.stages)
    (laid : tie ∈ stage.ties) :
    ∃ role : Role,
      Served bank.geometry tie.color role ∧
        tie.sink = (role.point bank.geometry .one).shift bank.first ∧
        bank.stages[role.stage]? = some stage ∧ tie.source = role.source tie.color := by
  simp only [Bank.stages, List.mem_cons, List.mem_map, List.mem_range] at planned
  rcases planned with rfl | ⟨port, portInRange, rfl⟩
  · simp only [List.mem_cons, List.mem_flatMap, List.mem_range, List.not_mem_nil, or_false] at laid
    rcases laid with rfl | rfl | ⟨row, inRange, rfl | rfl⟩
    · exact ⟨Role.pulse, .pulse _, rfl, rfl, rfl⟩
    · exact ⟨Role.pulse, .pulse _, rfl, rfl, rfl⟩
    · exact ⟨select row, .select inRange, rfl, rfl, rfl⟩
    · exact ⟨latch row, .latch inRange, rfl, rfl, rfl⟩
  · simp only [List.mem_singleton] at laid
    subst laid
    refine ⟨decode port, .decode portInRange, rfl, ?_, rfl⟩
    simp [Bank.stages, Role.stage, portInRange]

/-- The wires inside a memory, by the roles that they join. -/
theorem mem_wires
    {wire : Color × List Endpoint}
    (inside : wire ∈ (NodeKind.memory bank).wires) :
    ∃ ends,
      Wire bank.geometry wire.1 ends ∧ (∀ point ∈ ends, point.1.Inner) ∧
        wire.2 = ends.map fun end_ => (end_.1.point bank.geometry end_.2).shift bank.first := by
  simp only [NodeKind.wires, Part.wiresAt, List.mem_map] at inside
  obtain ⟨unmoved, member, rfl⟩ := inside
  obtain ⟨ends, laid, shape, inner⟩ := mem_part_wires member
  refine ⟨ends, laid, inner, ?_⟩
  rw [shape]
  simp [wireOf]

/-- The outputs of neighbouring readers are joined in both colors. -/
theorem chain_mem_wires
    {geometry : Geometry}
    {port row : Nat}
    (portInRange : port < geometry.readPorts)
    (inRange : row + 1 < geometry.size)
    (color : Color) :
    (color, [⟨readAt geometry port row, .two⟩, ⟨readAt geometry port (row + 1), .two⟩]) ∈
      (part geometry).wires := by
  simp only [part, wires_readChain, List.mem_append, List.mem_flatMap, List.mem_range]
  refine .inr ⟨port, portInRange, row + 1, inRange, ?_⟩
  cases color <;> simp [readWires, readAt, Color.all]

/-- The endpoints that carry the value of a read port. -/
def readerPoints (bank : Bank) (port : Nat) : List Endpoint :=
  (List.range bank.geometry.size).map fun row =>
    ((reader port row).point bank.geometry .two).shift bank.first

/-- The entities of a memory are combinators with two ports. -/
theorem outputPort_of_mem_bodies
    {geometry : Geometry}
    {body : Body}
    (member : body ∈ (part geometry).bodies) :
    body.outputPort = .two := by
  simp only [part, rowBodies, portBodies, List.mem_cons, List.mem_append, List.mem_flatMap,
    List.mem_map, List.not_mem_nil, or_false] at member
  rcases member with (rfl | ⟨row, -, rfl | rfl | rfl⟩) | ⟨port, -, rfl | ⟨row, -, rfl⟩⟩ <;> rfl

theorem mem_entities
    {role : Role}
    (present : role.In bank.geometry)
    (inner : role.Inner)
    (port : Port) :
    ((role.point bank.geometry port).shift bank.first).entity ∈
      (NodeKind.memory bank).entities := by
  simp only [NodeKind.entities, List.mem_map, List.mem_range]
  exact ⟨_, place_lt_entityCount present inner, rfl⟩

end Bank

namespace NodeKind

/-- Producers are wired to an endpoint of a node in a color. -/
def Inlet (kind : NodeKind) (color : Color) (point : Endpoint) : Prop :=
  ∃ stage ∈ kind.stages, ∃ tie ∈ stage.ties, tie.color = color ∧ tie.sink = point

/-- The nodes that have a value of their own. -/
def isProducer : NodeKind → Bool
  | input .. | literal _ | gate .. | mux .. | readPort .. => true
  | tap _ | output .. | memory _ => false

/-- A memory has rows. -/
def HasRows : NodeKind → Prop
  | memory bank => 1 ≤ bank.geometry.size
  | _ => True

variable {kind : NodeKind} {color : Color} {point : Endpoint}

theorem Inlet.served
    {bank : Bank}
    (inlet : (memory bank).Inlet color point) :
    ∃ role : Role,
      Role.Served bank.geometry color role ∧
        point = (role.point bank.geometry .one).shift bank.first := by
  obtain ⟨stage, planned, tie, laid, rfl, rfl⟩ := inlet
  obtain ⟨role, served, sink, -⟩ := Bank.served_of_tie planned laid
  exact ⟨role, served, sink⟩

theorem Inlet.mem_entities
    (inlet : kind.Inlet color point) :
    point.entity ∈ kind.entities := by
  cases kind with
  | memory bank =>
      obtain ⟨role, served, rfl⟩ := inlet.served
      exact Bank.mem_entities served.present served.inner .one
  | _ => simp_all [Inlet, stages, entities] <;> grind

theorem Inlet.port_eq
    (inlet : kind.Inlet color point) :
    point.port = .one := by
  cases kind with
  | memory bank =>
      obtain ⟨role, served, rfl⟩ := inlet.served
      rfl
  | _ => simp_all [Inlet, stages] <;> grind

theorem mem_entities_of_mem_wires
    (rows : kind.HasRows)
    {wire : Color × List Endpoint}
    (inside : wire ∈ kind.wires)
    (member : point ∈ wire.2) :
    point.entity ∈ kind.entities := by
  cases kind with
  | memory bank =>
      obtain ⟨ends, laid, inner, shape⟩ := Bank.mem_wires inside
      rw [shape] at member
      obtain ⟨end_, listed, rfl⟩ := List.mem_map.mp member
      exact Bank.mem_entities (laid.in_ends rows _ listed) (inner _ listed) _
  | _ =>
      simp_all [wires, Part.wiresAt, gatePart, muxPart, entities, Endpoint.shift] <;> grind

/-- The wires inside a node lead to inlets of other colors only. -/
theorem Inlet.not_mem
    (rows : kind.HasRows)
    {wire : Color × List Endpoint}
    (inlet : kind.Inlet wire.1 point)
    (inside : wire ∈ kind.wires) :
    point ∉ wire.2 := by
  cases kind with
  | memory bank =>
      obtain ⟨role, served, rfl⟩ := inlet.served
      obtain ⟨ends, laid, inner, shape⟩ := Bank.mem_wires inside
      rw [shape]
      intro member
      obtain ⟨end_, listed, same⟩ := List.mem_map.mp member
      obtain ⟨sameRole, samePort⟩ :=
        Role.shift_point_inj (laid.in_ends rows _ listed) served.present same
      apply served.not_mem laid inner
      rw [← sameRole, ← samePort]
      exact listed
  | _ =>
      simp_all [Inlet, stages, wires, Part.wiresAt, gatePart, muxPart, Endpoint.shift] <;> grind

/-- Only one request is wired to an inlet. -/
theorem request_eq_of_sink_eq
    {stage other : Stage}
    (planned : stage ∈ kind.stages)
    (otherPlanned : other ∈ kind.stages)
    {tie otherTie : Tie}
    (laid : tie ∈ stage.ties)
    (otherLaid : otherTie ∈ other.ties)
    (sameColor : tie.color = otherTie.color)
    (sameSink : tie.sink = otherTie.sink) :
    stage.requests[tie.source]? = other.requests[otherTie.source]? := by
  cases kind with
  | memory bank =>
      obtain ⟨role, served, sink, atRole, source⟩ := Bank.served_of_tie planned laid
      obtain ⟨otherRole, otherServed, otherSink, atOther, otherSource⟩ :=
        Bank.served_of_tie otherPlanned otherLaid
      rw [sink, otherSink] at sameSink
      obtain ⟨rfl, -⟩ := Role.shift_point_inj served.present otherServed.present sameSink
      obtain rfl := Option.some.inj (atRole.symm.trans atOther)
      rw [source, otherSource, sameColor]
  | _ => simp_all [stages] <;> grind

/-- Endpoints of a node that nothing else of it is joined to, and that are no inlets. -/
structure IsCore (kind : NodeKind) (color : Color) (core : List Endpoint) : Prop where
  inside : ∀ point ∈ core, point.entity ∈ kind.entities
  closed :
    ∀ wire ∈ kind.wires, wire.1 = color →
      ∀ first ∈ wire.2, ∀ second ∈ wire.2, first ∈ core → second ∈ core
  dry : ∀ point, kind.Inlet color point → point ∉ core

theorem isCore_input
    (bits : List Bit)
    (constant : Nat)
    (color : Color) :
    (input bits constant).IsCore color [⟨constant, .one⟩] :=
  ⟨by simp [entities], by simp [wires], by simp [Inlet, stages]⟩

theorem isCore_literal
    (constant : Nat)
    (color : Color) :
    (literal constant).IsCore color [⟨constant, .one⟩] :=
  ⟨by simp [entities], by simp [wires], by simp [Inlet, stages]⟩

theorem isCore_gate
    (label : String)
    (a b : List Bit)
    (first : Nat)
    (color : Color) :
    (gate label a b first).IsCore color [⟨first + 1, .two⟩] where
  inside := by simp [entities]
  closed := by simp [wires, Part.wiresAt, gatePart, Endpoint.shift]
  dry := fun point inlet => by
    have port := inlet.port_eq
    simp only [List.mem_singleton]
    rintro rfl
    cases port

/-- The second operand of a gate, on its way from the transformer. -/
theorem isCore_gate_operand
    (label : String)
    (a b : List Bit)
    (first : Nat) :
    (gate label a b first).IsCore .green [⟨first, .two⟩, ⟨first + 1, .one⟩] where
  inside := by simp [entities]
  closed := by simp [wires, Part.wiresAt, gatePart, Endpoint.shift]
  dry := by simp [Inlet, stages]

/-- The input of the transformer of a gate, on which nothing arrives in green. -/
theorem isCore_gate_entry
    (label : String)
    (a b : List Bit)
    (first : Nat) :
    (gate label a b first).IsCore .green [⟨first, .one⟩] where
  inside := by simp [entities]
  closed := by simp [wires, Part.wiresAt, gatePart, Endpoint.shift]
  dry := by simp [Inlet, stages]

/-- Red wires join both deciders of a multiplexer. -/
theorem isCore_mux_red
    (a b select : List Bit)
    (first : Nat) :
    (mux a b select first).IsCore .red [⟨first + 1, .two⟩, ⟨first + 2, .two⟩] where
  inside := by simp [entities]
  closed := by simp [wires, Part.wiresAt, muxPart, Endpoint.shift]
  dry := fun point inlet => by
    have port := inlet.port_eq
    simp only [List.mem_cons, List.not_mem_nil, or_false]
    rintro (rfl | rfl) <;> cases port

/-- Green wires join the first decider of a multiplexer to nothing. -/
theorem isCore_mux_green
    (a b select : List Bit)
    (first : Nat) :
    (mux a b select first).IsCore .green [⟨first + 1, .two⟩] where
  inside := by simp [entities]
  closed := by simp [wires, Part.wiresAt, muxPart, Endpoint.shift]
  dry := fun point inlet => by
    have port := inlet.port_eq
    simp only [List.mem_singleton]
    rintro rfl
    cases port

/-- The selection of a multiplexer, on its way from the transformer. -/
theorem isCore_mux_select
    (a b select : List Bit)
    (first : Nat) :
    (mux a b select first).IsCore .green
      [⟨first, .two⟩, ⟨first + 1, .one⟩, ⟨first + 2, .one⟩] where
  inside := by simp [entities]
  closed := by simp [wires, Part.wiresAt, muxPart, Endpoint.shift]
  dry := by simp [Inlet, stages]

/-- The input of the transformer of a multiplexer, on which nothing arrives in green. -/
theorem isCore_mux_entry
    (a b select : List Bit)
    (first : Nat) :
    (mux a b select first).IsCore .green [⟨first, .one⟩] where
  inside := by simp [entities]
  closed := by simp [wires, Part.wiresAt, muxPart, Endpoint.shift]
  dry := by simp [Inlet, stages]

theorem isCore_readerPoints
    {bank : Bank}
    (rows : 1 ≤ bank.geometry.size)
    {port : Nat}
    (portInRange : port < bank.geometry.readPorts)
    (color : Color) :
    (memory bank).IsCore color (bank.readerPoints port) where
  inside := by
    intro point member
    simp only [Bank.readerPoints, List.mem_map, List.mem_range] at member
    obtain ⟨row, inRange, rfl⟩ := member
    have present : (Role.reader port row).In bank.geometry := ⟨portInRange, inRange⟩
    exact Bank.mem_entities present trivial .two
  closed := by
    intro wire inside sameColor first firstMember second secondMember isReader
    obtain ⟨ends, laid, inner, shape⟩ := Bank.mem_wires inside
    rw [shape] at firstMember secondMember
    rw [sameColor] at laid
    obtain ⟨firstEnd, firstListed, rfl⟩ := List.mem_map.mp firstMember
    obtain ⟨secondEnd, secondListed, rfl⟩ := List.mem_map.mp secondMember
    simp only [Bank.readerPoints, List.mem_map, List.mem_range] at isReader ⊢
    obtain ⟨row, inRange, same⟩ := isReader
    have present : (Role.reader port row).In bank.geometry := ⟨portInRange, inRange⟩
    obtain ⟨sameRole, samePort⟩ :=
      Role.shift_point_inj present (laid.in_ends rows _ firstListed) same
    -- Only the wires from reader to reader lead to the output of one.
    have chained : ∃ other, other < bank.geometry.size ∧ secondEnd = (.reader port other, .two) := by
      obtain ⟨role, end_⟩ := firstEnd
      subst sameRole samePort
      cases laid with
      | result => exact (inner _ (List.mem_cons_of_mem _ List.mem_cons_self)).elim
      | _ => simp_all <;> grind
    obtain ⟨other, otherInRange, rfl⟩ := chained
    exact ⟨other, otherInRange, rfl⟩
  dry := by
    intro point inlet member
    simp only [Bank.readerPoints, List.mem_map] at member
    obtain ⟨row, -, rfl⟩ := member
    cases inlet.port_eq

end NodeKind

end CircuitNetwork
