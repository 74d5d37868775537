import CircuitNetwork.Proofs.Generator.Emission
import CircuitNetwork.Proofs.Groups.Order

namespace CircuitNetwork

/-!
# The buses of a memory

The networks of a memory fall into buses. The signals of the networks of one bus
can only be changed together, those of different buses apart from each other, so
the signal groups of a memory are its buses.
-/

/-- What networks of a memory are for: the write pulse, clock and write enable, write address, the data
on its way to a read port, and for each read port its decoded address and its address. -/
inductive Bus where
  | write
  | clock
  | address
  | data
  | decoded (port : Nat)
  | readAddress (port : Nat)
  deriving Repr, DecidableEq, Inhabited

namespace Bus

/-- The signal that carries the values of a bus. -/
@[simp] def signal : Bus → Signal
  | write | decoded _ => .control
  | _ => .value

/-- The buses of a memory. -/
def all (geometry : Geometry) : List Bus :=
  [write, clock, address, data] ++
    ((List.range geometry.readPorts).map decoded ++
      (List.range geometry.readPorts).map readAddress)

theorem nodup_all
    (geometry : Geometry) :
    (all geometry).Nodup := by
  have decodeds : ((List.range geometry.readPorts).map decoded).Nodup :=
    List.nodup_range.map fun _ _ same => by cases same; rfl
  have addresses : ((List.range geometry.readPorts).map readAddress).Nodup :=
    List.nodup_range.map fun _ _ same => by cases same; rfl
  refine List.nodup_append.mpr ⟨by decide, List.nodup_append.mpr ⟨decodeds, addresses, ?_⟩, ?_⟩
  · simp
  · simp only [List.mem_append, List.mem_map]
    rintro bus isBus _ (⟨port, -, rfl⟩ | ⟨port, -, rfl⟩) rfl <;> simp at isBus

/-- The entity whose output the values of a bus come from, first of all. -/
def source : Bus → Role
  | write => .pulse
  | clock => .input 0
  | address => .input 1
  | data => .input 2
  | decoded port => .decode port
  | readAddress port => .input (port + 4)

/-- The color of the network at the source of a bus. -/
def color : Bus → Color
  | write => .green
  | _ => .red

theorem mem_all
    {geometry : Geometry}
    {bus : Bus} :
    bus ∈ all geometry ↔
      match bus with
      | decoded port | readAddress port => port < geometry.readPorts
      | _ => True := by
  cases bus <;> simp [all]

/-- There are a write bus and a decoded address for every read port. -/
theorem length_filter_control
    (geometry : Geometry) :
    ((all geometry).filter (·.signal = .control)).length = 1 + geometry.readPorts := by
  have fixed : [write, clock, address, data].filter (·.signal = .control) = [write] := rfl
  have addresses : ((List.range geometry.readPorts).map readAddress).filter
      (·.signal = .control) = [] := by
    simp [signal, Signal.value_ne_control]
  have decodeds : ((List.range geometry.readPorts).map decoded).filter (·.signal = .control) =
      (List.range geometry.readPorts).map decoded := by
    simp [signal]
  rw [all, List.filter_append, List.filter_append, fixed, decodeds, addresses]
  simp
  omega

/-- There are three buses for what is written, and an address for every read port. -/
theorem length_filter_value
    (geometry : Geometry) :
    ((all geometry).filter (·.signal = .value)).length = 3 + geometry.readPorts := by
  have fixed : [write, clock, address, data].filter (·.signal = .value) =
      [clock, address, data] := rfl
  have decodeds : ((List.range geometry.readPorts).map decoded).filter (·.signal = .value) = [] := by
    simp [signal, Signal.value_ne_control.symm]
  have addresses : ((List.range geometry.readPorts).map readAddress).filter (·.signal = .value) =
      (List.range geometry.readPorts).map readAddress := by
    simp [signal]
  rw [all, List.filter_append, List.filter_append, fixed, decodeds, addresses]
  simp
  omega

end Bus

namespace Role

variable {geometry : Geometry}

/-- The bus that a network belongs to. -/
@[simp] def Net.bus? : Net → Option Bus
  | .pulse | .select _ => some .write
  | .clock | .enable => some .clock
  | .address => some .address
  | .data | .value _ | .output _ => some .data
  | .decoded port => some (.decoded port)
  | .readAddress port => some (.readAddress port)
  | .loose => none

/-- The bus that an endpoint puts its signal out to or reads it from. -/
@[simp] def bus? : Role × Port → Option Bus
  | (.pulse, .one) | (.input 0, .one) | (.input 3, .one) => some .clock
  | (.pulse, .two) | (.select _, .two) | (.latch _, .one) | (.hold _, .one) => some .write
  | (.select _, .one) | (.input 1, .one) => some .address
  | (.latch _, .two) | (.hold _, .two) | (.reader _ _, .two) | (.input 2, .one) => some .data
  | (.decode port, .one) | (.input (port + 4), .one) => some (.readAddress port)
  | (.decode port, .two) | (.reader port _, .one) => some (.decoded port)
  | _ => none

theorem exists_port
    {P : Port → Prop} :
    (∃ port, P port) ↔ P .one ∨ P .two :=
  ⟨fun ⟨port, holds⟩ => by cases port <;> simp [holds], fun holds => holds.elim (⟨_, ·⟩) (⟨_, ·⟩)⟩

theorem exists_color
    {P : Color → Prop} :
    (∃ color, P color) ↔ P .red ∨ P .green :=
  ⟨fun ⟨color, holds⟩ => by cases color <;> simp [holds], fun holds => holds.elim (⟨_, ·⟩) (⟨_, ·⟩)⟩

theorem isSome_bus?_iff
    (on : Net) :
    on.bus?.isSome ↔ on ≠ .loose := by
  cases on <;> simp

/-- What an entity puts out or reads at a port is the signal of the bus there. -/
theorem bus?_iff
    {role : Role}
    {port : Port}
    {signal : Signal} :
    (∃ bus, bus? (role, port) = some bus ∧ bus.signal = signal) ↔
      (port = role.outlet ∧ signal ∈ (role.body geometry).outputs) ∨
        (port = .one ∧ signal ∈ (role.body geometry).operands) := by
  cases role with
  | input index =>
      rcases index with _ | _ | _ | _ | index <;> cases port <;>
        simp [outlet, body, Body.ofCount, Body.ofFilters, Body.outputs, Body.operands, eq_comm]
  | _ =>
      cases port <;>
        simp [outlet, body, Bank.pulse, selector, transformer, Body.ofFilters, Body.outputs,
          Body.operands, Operand.signal?, eq_comm]

/-- The two ports of an entity are for different signals. -/
theorem bus?_unique
    {role : Role}
    {port other : Port}
    {bus otherBus : Bus}
    (found : bus? (role, port) = some bus)
    (otherFound : bus? (role, other) = some otherBus)
    (same : bus.signal = otherBus.signal) :
    bus = otherBus := by
  cases role with
  | input index => cases port <;> cases other <;> grind [bus?]
  | _ =>
      cases port <;> cases other <;>
        simp only [bus?, Option.some.injEq, reduceCtorEq] at found otherFound <;>
        subst found otherFound <;>
        simp [Signal.value_ne_control, Signal.value_ne_control.symm] at same ⊢

/-- The networks of an entity that puts out or reads something belong to the buses of its ports. -/
theorem exists_bus?_of_net
    {role : Role}
    {used port : Port}
    {color : Color}
    {bus : Bus}
    (busy : (bus? (role, used)).isSome)
    (belongs : (net geometry color (role, port)).bus? = some bus) :
    ∃ other, bus? (role, other) = some bus := by
  rw [exists_port]
  cases role with
  | terminal port =>
      cases used <;> cases busy
  | input index =>
      rcases index with _ | _ | _ | _ | index <;> cases color <;> cases port <;>
        simp_all [net, redNet, greenNet]
  | reader reading row =>
      by_cases single : geometry.size = 1 <;> cases color <;> cases port <;>
        simp_all [net, redNet, greenNet]
  | _ =>
      cases color <;> cases port <;> simp_all [net, redNet, greenNet]

/-- An endpoint is on a network of its bus. -/
theorem exists_net_of_bus?
    {role : Role}
    {port : Port}
    {bus : Bus}
    (found : bus? (role, port) = some bus) :
    ∃ color, (net geometry color (role, port)).bus? = some bus := by
  rw [exists_color]
  cases role with
  | input index =>
      rcases index with _ | _ | _ | _ | index <;> cases port <;>
        simp_all [net, redNet, greenNet]
  | _ =>
      cases port <;> simp_all [net, redNet, greenNet]

/-- Every network gets the signal of its bus from an entity. -/
theorem exists_producer
    (rows : 1 ≤ geometry.size)
    {role : Role}
    (present : role.In geometry)
    {color : Color}
    {port : Port}
    (laid : net geometry color (role, port) ≠ .loose) :
    ∃ source : Role, source.In geometry ∧
      net geometry color (source, source.outlet) = net geometry color (role, port) ∧
        bus? (source, source.outlet) = (net geometry color (role, port)).bus? := by
  refine ⟨(hub geometry color (net geometry color (role, port))).1, ?_⟩
  cases role with
  | input index =>
      rcases index with _ | _ | _ | _ | index <;> cases color <;> cases port <;>
        simp_all [net, redNet, greenNet, hub, In, outlet]
  | _ =>
      cases color <;> cases port <;>
        simp_all [net, redNet, greenNet, hub, In, outlet] <;> omega

/-- The networks at an output all belong to its bus. -/
theorem bus?_net_outlet
    {role : Role}
    {bus : Bus}
    (found : bus? (role, role.outlet) = some bus)
    {color : Color}
    (laid : net geometry color (role, role.outlet) ≠ .loose) :
    (net geometry color (role, role.outlet)).bus? = some bus := by
  cases role with
  | input index =>
      rcases index with _ | _ | _ | _ | index <;> cases color <;>
        simp_all [net, redNet, greenNet, outlet]
  | reader port row =>
      by_cases single : geometry.size = 1 <;> cases color <;>
        simp_all [net, redNet, greenNet, outlet]
  | _ =>
      cases color <;> simp_all [net, redNet, greenNet, outlet]

theorem mem_outputs_of_bus?
    {role : Role}
    {bus : Bus}
    (found : bus? (role, role.outlet) = some bus) :
    bus.signal ∈ (role.body geometry).outputs := by
  rcases bus?_iff.mp ⟨bus, found, rfl⟩ with ⟨-, puts⟩ | ⟨isOne, reads⟩
  · exact puts
  · cases role with
    | input _ => cases reads
    | terminal _ => cases reads
    | _ => cases isOne

theorem not_wild
    (role : Role) :
    (role.body geometry).operands.any (·.isWildcard) = false := by
  cases role <;> rfl

end Role

open Role

/-- A network of a bus. -/
def Bus.Has (geometry : Geometry) (board : Board) (bus : Bus) (network : Nat) : Prop :=
  ∃ (color : Color) (role : Role) (port : Port), role.In geometry ∧
    board.network? color (role.point geometry port) = some network ∧
      (net geometry color (role, port)).bus? = some bus

namespace Realized

variable {geometry : Geometry} {board : Board} {members : List Nat} {role other : Role}
  {color : Color} {port otherPort : Port} {network : Nat} {bus : Bus} {signal : Signal}

theorem net_ne_loose
    (realized : Realized geometry board members)
    (present : role.In geometry)
    (found : board.network? color (role.point geometry port) = some network) :
    net geometry color (role, port) ≠ .loose :=
  ((realized.joined_iff _ _ _ _ _ present present).mp ⟨network, found, found⟩).1

theorem exists_network?
    (realized : Realized geometry board members)
    (present : role.In geometry)
    (laid : net geometry color (role, port) ≠ .loose) :
    ∃ network, board.network? color (role.point geometry port) = some network := by
  obtain ⟨network, found, -⟩ :=
    (realized.joined_iff color role role port port present present).mpr ⟨laid, rfl⟩
  exact ⟨network, found⟩

/-- Endpoints with the same name of a network are on the same network. -/
theorem network?_eq
    (realized : Realized geometry board members)
    (present : role.In geometry)
    (found : board.network? color (role.point geometry port) = some network)
    (otherPresent : other.In geometry)
    (same : net geometry color (other, otherPort) = net geometry color (role, port)) :
    board.network? color (other.point geometry otherPort) = some network := by
  obtain ⟨shared, sharedFound, otherFound⟩ :=
    (realized.joined_iff color role other port otherPort present otherPresent).mpr
      ⟨realized.net_ne_loose present found, same.symm⟩
  rw [otherFound, ← sharedFound, found]

/-- A network belongs to one bus. -/
theorem has_unique
    (realized : Realized geometry board members)
    {otherBus : Bus}
    (has : bus.Has geometry board network)
    (otherHas : otherBus.Has geometry board network) :
    bus = otherBus := by
  obtain ⟨color, role, port, present, found, belongs⟩ := has
  obtain ⟨otherColor, other, otherPort, otherPresent, otherFound, otherBelongs⟩ := otherHas
  obtain ⟨listed, isListed, -⟩ := realized.tidy.lists_of_network? found
  obtain ⟨otherListed, isOtherListed, -⟩ := realized.tidy.lists_of_network? otherFound
  obtain ⟨rfl, -⟩ := Prod.mk.inj (Option.some.inj (isListed.symm.trans isOtherListed))
  have same := ((realized.joined_iff color role other port otherPort present otherPresent).mp
    ⟨network, found, otherFound⟩).2
  rw [same] at belongs
  exact Option.some.inj (belongs.symm.trans otherBelongs)

/-- A network at an endpoint belongs to a bus. -/
theorem exists_bus
    (realized : Realized geometry board members)
    (present : role.In geometry)
    (attached : board.Attached (role.point geometry port) network) :
    ∃ color bus, (net geometry color (role, port)).bus? = some bus ∧
      board.network? color (role.point geometry port) = some network := by
  obtain ⟨color, found⟩ := attached
  obtain ⟨bus, belongs⟩ := Option.isSome_iff_exists.mp
    ((isSome_bus?_iff _).mpr (realized.net_ne_loose present found))
  exact ⟨color, bus, belongs, found⟩

/-- What is done at a listed entity is done by the entity of a role. -/
theorem exists_role
    (realized : Realized geometry board members)
    {entity : Nat}
    (listed : entity ∈ members) :
    ∃ role : Role, role.In geometry ∧ role.place geometry = entity ∧
      (board.entity entity).body = role.body geometry ∧
        board.output entity = role.point geometry role.outlet := by
  obtain ⟨role, present, rfl⟩ := exists_place ((realized.member_iff entity).mp listed)
  exact ⟨role, present, rfl, realized.body_eq role present, realized.output_place present⟩

theorem place_mem
    (realized : Realized geometry board members)
    (present : role.In geometry) :
    role.place geometry ∈ members :=
  (realized.member_iff _).mpr (place_lt_total present)

theorem produced_iff
    (realized : Realized geometry board members)
    (rows : 1 ≤ geometry.size) :
    board.Produced members signal network ↔
      ∃ bus : Bus, bus.Has geometry board network ∧ bus.signal = signal := by
  constructor
  · rintro ⟨entity, listed, puts, attached⟩
    obtain ⟨role, present, rfl, body, output⟩ := realized.exists_role listed
    rw [body] at puts
    rw [output] at attached
    obtain ⟨bus, found, isSignal⟩ := bus?_iff.mpr (.inl ⟨rfl, puts⟩)
    obtain ⟨color, atColor⟩ := attached
    exact ⟨bus, ⟨color, role, role.outlet, present, atColor,
      bus?_net_outlet found (realized.net_ne_loose present atColor)⟩, isSignal⟩
  · rintro ⟨bus, ⟨color, role, port, present, found, belongs⟩, rfl⟩
    obtain ⟨source, sourcePresent, sameNet, sourceBus⟩ :=
      exists_producer rows present (realized.net_ne_loose present found)
    refine ⟨source.place geometry, realized.place_mem sourcePresent, ?_, color, ?_⟩
    · rw [realized.body_eq source sourcePresent]
      exact mem_outputs_of_bus? (sourceBus.trans belongs)
    · rw [realized.output_place sourcePresent]
      exact realized.network?_eq present found sourcePresent sameNet

theorem not_wild
    (realized : Realized geometry board members)
    {entity : Nat}
    (listed : entity ∈ members) :
    ¬board.Wild entity := by
  obtain ⟨role, -, rfl, body, -⟩ := realized.exists_role listed
  rw [Board.Wild, body, Role.not_wild]
  exact Bool.false_ne_true

/-- Every signal that is read comes from an entity. -/
theorem not_starved
    (realized : Realized geometry board members)
    (rows : 1 ≤ geometry.size)
    {entity : Nat}
    (listed : entity ∈ members) :
    ¬board.Starved members signal entity := by
  rintro ⟨-, reads, unproduced⟩
  obtain ⟨role, present, rfl, body, -⟩ := realized.exists_role listed
  rw [body] at reads
  obtain ⟨bus, found, isSignal⟩ := bus?_iff.mpr (.inr ⟨rfl, reads⟩)
  obtain ⟨color, belongs⟩ : ∃ color, (net geometry color (role, .one)).bus? = some bus :=
    exists_net_of_bus? found
  have laid : net geometry color (role, .one) ≠ .loose := by
    rw [← isSome_bus?_iff, belongs]
    rfl
  obtain ⟨network, atColor⟩ := realized.exists_network? present laid
  exact unproduced network ⟨color, atColor⟩ ((realized.produced_iff rows).mpr
    ⟨bus, ⟨color, role, .one, present, atColor, belongs⟩, isSignal⟩)

theorem known_iff
    (realized : Realized geometry board members)
    (rows : 1 ≤ geometry.size) :
    board.Known members signal network ↔
      ∃ bus : Bus, bus.Has geometry board network ∧ bus.signal = signal := by
  rw [← realized.produced_iff rows, Board.Known, or_iff_left]
  rintro ⟨reader, listed, starved, -⟩
  exact realized.not_starved rows listed starved

theorem unambiguous
    (realized : Realized geometry board members)
    (rows : 1 ≤ geometry.size)
    (signal : Signal) :
    board.Unambiguous members signal :=
  fun _ listed starved => absurd starved (realized.not_starved rows listed)

/-! ## Interactions -/

/-- The networks of an entity that carry one signal belong to one bus. -/
theorem bus_eq_of_attached
    (realized : Realized geometry board members)
    (present : role.In geometry)
    {used : Port}
    (busy : (bus? (role, used)).isSome)
    {otherNetwork : Nat}
    (attached : board.Attached (role.point geometry port) network)
    (otherAttached : board.Attached (role.point geometry otherPort) otherNetwork)
    {otherBus : Bus}
    (has : bus.Has geometry board network)
    (otherHas : otherBus.Has geometry board otherNetwork)
    (same : bus.signal = otherBus.signal) :
    bus = otherBus := by
  obtain ⟨color, atPort, belongs, found⟩ := realized.exists_bus present attached
  obtain ⟨otherColor, atOther, otherBelongs, otherFound⟩ :=
    realized.exists_bus present otherAttached
  obtain rfl := realized.has_unique has ⟨color, role, port, present, found, belongs⟩
  obtain rfl := realized.has_unique otherHas
    ⟨otherColor, role, otherPort, present, otherFound, otherBelongs⟩
  obtain ⟨first, firstBus⟩ := exists_bus?_of_net busy belongs
  obtain ⟨second, secondBus⟩ := exists_bus?_of_net busy otherBelongs
  exact bus?_unique firstBus secondBus same

/-- Networks interact at an entity that puts out or reads something. -/
theorem exists_role_of_interact
    (realized : Realized geometry board members)
    {first second : Nat}
    (interact : board.Interact members signal first second) :
    ∃ (role : Role) (used port otherPort : Port), role.In geometry ∧ (bus? (role, used)).isSome ∧
      board.Attached (role.point geometry port) first ∧
        board.Attached (role.point geometry otherPort) second := by
  have busyOutput {role : Role} (puts : signal ∈ (role.body geometry).outputs) :
      (bus? (role, role.outlet)).isSome := by
    obtain ⟨bus, found, -⟩ := bus?_iff.mpr (.inl ⟨rfl, puts⟩)
    exact Option.isSome_of_eq_some found
  cases interact with
  | output listed puts firstAttached secondAttached =>
      obtain ⟨role, present, rfl, body, output⟩ := realized.exists_role listed
      rw [output] at firstAttached secondAttached
      exact ⟨role, _, _, _, present, busyOutput (body ▸ puts), firstAttached, secondAttached⟩
  | input listed receives firstAttached secondAttached =>
      obtain ⟨role, present, rfl, body, -⟩ := realized.exists_role listed
      rcases receives with reads | ⟨-, puts⟩ | isWild
      · obtain ⟨readBus, found, -⟩ := bus?_iff.mpr (.inr ⟨rfl, body ▸ reads⟩)
        exact ⟨role, _, _, _, present, Option.isSome_of_eq_some found, firstAttached, secondAttached⟩
      · exact ⟨role, _, _, _, present, busyOutput (body ▸ puts), firstAttached, secondAttached⟩
      · exact absurd isWild (realized.not_wild listed)
  | forward listed passes firstAttached secondAttached =>
      obtain ⟨role, present, rfl, body, output⟩ := realized.exists_role listed
      rw [output] at secondAttached
      exact ⟨role, _, _, _, present, busyOutput (body ▸ passes.output), firstAttached,
        secondAttached⟩
  | backward listed passes firstAttached secondAttached =>
      obtain ⟨role, present, rfl, body, output⟩ := realized.exists_role listed
      rw [output] at firstAttached
      exact ⟨role, _, _, _, present, busyOutput (body ▸ passes.output), firstAttached,
        secondAttached⟩

/-- Networks of different buses do not interact. -/
theorem bus_eq_of_interact
    (realized : Realized geometry board members)
    {first second : Nat}
    (interact : board.Interact members signal first second)
    {otherBus : Bus}
    (has : bus.Has geometry board first)
    (isSignal : bus.signal = signal)
    (otherHas : otherBus.Has geometry board second)
    (isOther : otherBus.signal = signal) :
    bus = otherBus := by
  obtain ⟨role, used, port, otherPort, present, busy, attached, otherAttached⟩ :=
    realized.exists_role_of_interact interact
  exact realized.bus_eq_of_attached present busy attached otherAttached has otherHas
    (isSignal.trans isOther.symm)

/-! ## Chains along a bus -/

theorem in_source
    (listed : bus ∈ Bus.all geometry) :
    bus.source.In geometry := by
  have listed := Bus.mem_all.mp listed
  cases bus <;> simp_all [Bus.source, In] <;> omega

theorem bus?_source
    (bus : Bus) :
    bus? (bus.source, bus.source.outlet) = some bus := by
  cases bus <;> rfl

theorem net_source_ne_loose
    (bus : Bus) :
    net geometry bus.color (bus.source, bus.source.outlet) ≠ .loose := by
  cases bus <;> simp [Bus.source, Bus.color, outlet, net, redNet, greenNet]

theorem bound_of_interact
    (realized : Realized geometry board members)
    (rows : 1 ≤ geometry.size)
    {first second : Nat}
    (interact : board.Interact members bus.signal first second)
    (has : bus.Has geometry board first)
    (otherHas : bus.Has geometry board second) :
    board.Bound members bus.signal first second :=
  .single ⟨interact, (realized.known_iff rows).mpr ⟨bus, has, rfl⟩,
    (realized.known_iff rows).mpr ⟨bus, otherHas, rfl⟩⟩

/-- A network at an output belongs to its bus. -/
theorem has_of_output
    (realized : Realized geometry board members)
    (present : role.In geometry)
    (found : bus? (role, role.outlet) = some bus)
    (attached : board.Attached (role.point geometry role.outlet) network) :
    bus.Has geometry board network := by
  obtain ⟨color, atColor⟩ := attached
  exact ⟨color, role, role.outlet, present, atColor,
    bus?_net_outlet found (realized.net_ne_loose present atColor)⟩

/-- Networks at one output are tied together. -/
theorem bound_output
    (realized : Realized geometry board members)
    (rows : 1 ≤ geometry.size)
    (present : role.In geometry)
    (found : bus? (role, role.outlet) = some bus)
    {first second : Nat}
    (attached : board.Attached (role.point geometry role.outlet) first)
    (otherAttached : board.Attached (role.point geometry role.outlet) second) :
    board.Bound members bus.signal first second := by
  have output := realized.output_place present
  refine realized.bound_of_interact rows (.output (realized.place_mem present) ?_
    (output.symm ▸ attached) (output.symm ▸ otherAttached))
    (realized.has_of_output present found attached)
    (realized.has_of_output present found otherAttached)
  rw [realized.body_eq role present]
  exact mem_outputs_of_bus? found

/-- An entity that passes values through ties its input to its output. -/
theorem bound_through
    (realized : Realized geometry board members)
    (rows : 1 ≤ geometry.size)
    (present : role.In geometry)
    (passThrough : (role.body geometry).passThrough = true)
    (found : bus? (role, role.outlet) = some bus)
    {first second : Nat}
    (has : bus.Has geometry board first)
    (attached : board.Attached (role.point geometry .one) first)
    (otherAttached : board.Attached (role.point geometry role.outlet) second) :
    board.Bound members bus.signal first second := by
  have listed := realized.place_mem present
  have output := realized.output_place present
  refine realized.bound_of_interact rows (.forward listed ⟨?_, realized.not_wild listed, ?_⟩ attached
    (output.symm ▸ otherAttached)) has (realized.has_of_output present found otherAttached)
  · rw [realized.body_eq role present]
    exact passThrough
  · rw [realized.body_eq role present]
    exact mem_outputs_of_bus? found

/-- The write pulse ties the networks of clock and write enable. -/
theorem bound_clock
    (realized : Realized geometry board members)
    (rows : 1 ≤ geometry.size)
    {first second : Nat}
    (clock : board.network? .red (Role.pulse.point geometry .one) = some first)
    (enable : board.network? .green (Role.pulse.point geometry .one) = some second) :
    board.Bound members Bus.clock.signal first second := by
  have present : Role.pulse.In geometry := trivial
  refine realized.bound_of_interact rows
    (.input (realized.place_mem present) (.inl ?_) ⟨.red, clock⟩ ⟨.green, enable⟩)
    ⟨.red, .pulse, .one, present, clock, rfl⟩ ⟨.green, .pulse, .one, present, enable, rfl⟩
  rw [realized.body_eq _ present]
  exact List.mem_cons_self

/-- The latch of a row ties the row to the data that is written. -/
theorem exists_bound_row
    (realized : Realized geometry board members)
    (rows : 1 ≤ geometry.size)
    {start row : Nat}
    (atSource : board.network? .red ((Role.input 2).point geometry .one) = some start)
    (inRange : row < geometry.size) :
    ∃ stored, board.network? .green ((latch row).point geometry .two) = some stored ∧
      Bus.data.Has geometry board stored ∧
        board.Bound members Bus.data.signal start stored := by
  have sourcePresent : (Role.input 2).In geometry := by
    simp only [In]
    omega
  have present : (latch row).In geometry := inRange
  have laid : net geometry .green (latch row, .two) ≠ .loose := by simp [net, greenNet]
  obtain ⟨stored, found⟩ := realized.exists_network? present laid
  have atLatch : board.network? .red ((latch row).point geometry .one) = some start :=
    realized.network?_eq sourcePresent atSource present rfl
  exact ⟨stored, found, realized.has_of_output present rfl ⟨_, found⟩,
    realized.bound_through rows present rfl rfl
      (realized.has_of_output sourcePresent rfl ⟨_, atSource⟩) ⟨_, atLatch⟩ ⟨_, found⟩⟩

/-- All networks of a bus are tied to that of its source. -/
theorem bound_source
    (realized : Realized geometry board members)
    (rows : 1 ≤ geometry.size)
    (listed : bus ∈ Bus.all geometry)
    {start : Nat}
    (atSource : board.network? bus.color (bus.source.point geometry bus.source.outlet) = some start)
    (has : bus.Has geometry board network) :
    board.Bound members bus.signal start network := by
  have sourcePresent := in_source listed
  have sourceHas := realized.has_of_output sourcePresent (bus?_source bus) ⟨_, atSource⟩
  have direct {reached : Nat}
      (attached : board.Attached (bus.source.point geometry bus.source.outlet) reached) :=
    realized.bound_output rows sourcePresent (bus?_source bus) ⟨_, atSource⟩ attached
  obtain ⟨color, role, port, present, found, belongs⟩ := has
  obtain ⟨producer, producerPresent, sameNet, producerBus⟩ :=
    exists_producer rows present (realized.net_ne_loose present found)
  have atProducer := realized.network?_eq present found producerPresent sameNet
  rw [belongs] at producerBus
  cases producer with
  | pulse =>
      cases producerBus
      exact direct ⟨_, atProducer⟩
  | select row =>
      cases producerBus
      have atSelect : board.network? .green ((select row).point geometry .one) = some start :=
        realized.network?_eq sourcePresent atSource producerPresent rfl
      exact realized.bound_through rows producerPresent rfl rfl sourceHas ⟨_, atSelect⟩
        ⟨_, atProducer⟩
  | latch row =>
      cases producerBus
      have atLatch : board.network? .red ((latch row).point geometry .one) = some start :=
        realized.network?_eq sourcePresent atSource producerPresent rfl
      exact realized.bound_through rows producerPresent rfl rfl sourceHas ⟨_, atLatch⟩
        ⟨_, atProducer⟩
  | hold row =>
      cases producerBus
      obtain ⟨stored, atLatch, -, bound⟩ :=
        realized.exists_bound_row rows atSource producerPresent
      have latchPresent : (latch row).In geometry := producerPresent
      have atHold : board.network? .green ((hold row).point geometry .two) = some stored :=
        realized.network?_eq latchPresent atLatch producerPresent rfl
      exact bound.trans
        (realized.bound_output rows producerPresent rfl ⟨_, atHold⟩ ⟨_, atProducer⟩)
  | decode port =>
      cases producerBus
      exact direct ⟨_, atProducer⟩
  | reader port row =>
      cases producerBus
      obtain ⟨stored, atLatch, storedHas, bound⟩ :=
        realized.exists_bound_row rows atSource producerPresent.2
      have latchPresent : (latch row).In geometry := producerPresent.2
      have atReader : board.network? .green ((reader port row).point geometry .one) = some stored :=
        realized.network?_eq latchPresent atLatch producerPresent rfl
      exact bound.trans (realized.bound_through rows producerPresent rfl rfl storedHas ⟨_, atReader⟩
        ⟨_, atProducer⟩)
  | input index =>
      rcases index with _ | _ | _ | _ | index
      · cases producerBus
        exact direct ⟨_, atProducer⟩
      · cases producerBus
        exact direct ⟨_, atProducer⟩
      · cases producerBus
        exact direct ⟨_, atProducer⟩
      · cases producerBus
        have pulsePresent : Role.pulse.In geometry := trivial
        cases color with
        | red => exact absurd rfl (realized.net_ne_loose producerPresent atProducer)
        | green =>
            exact realized.bound_clock rows
              (realized.network?_eq sourcePresent atSource pulsePresent rfl)
              (realized.network?_eq producerPresent atProducer pulsePresent rfl)
      · cases producerBus
        exact direct ⟨_, atProducer⟩
  | terminal port =>
      cases producerBus

theorem mem_all_of_has
    (has : bus.Has geometry board network) :
    bus ∈ Bus.all geometry := by
  obtain ⟨color, role, port, present, -, belongs⟩ := has
  have inNet := in_net present color port
  generalize net geometry color (role, port) = on at inNet belongs
  rw [Bus.mem_all]
  cases on <;> cases belongs <;> simp_all [Net.In]

theorem bound_iff
    (realized : Realized geometry board members)
    (rows : 1 ≤ geometry.size)
    {first second : Nat}
    (has : bus.Has geometry board first) :
    board.Bound members bus.signal first second ↔ bus.Has geometry board second := by
  constructor
  · intro bound
    induction bound with
    | refl =>
        exact has
    | tail _ last inductionHypothesis =>
        obtain ⟨other, otherHas, isSignal⟩ := (realized.known_iff rows).mp last.2.2
        rwa [realized.bus_eq_of_interact last.1 inductionHypothesis rfl otherHas isSignal]
  · intro otherHas
    have listed := mem_all_of_has has
    obtain ⟨start, atSource⟩ := realized.exists_network? (in_source listed) (net_source_ne_loose bus)
    exact ((board.bound_equivalence members bus.signal).symm
      (realized.bound_source rows listed atSource has)).trans
        (realized.bound_source rows listed atSource otherHas)

/-! ## Groups -/

theorem uses_iff
    (realized : Realized geometry board members)
    {point : Endpoint} :
    board.Uses members signal point ↔
      ∃ (role : Role) (port : Port) (bus : Bus), role.In geometry ∧
        point = role.point geometry port ∧ bus? (role, port) = some bus ∧ bus.signal = signal := by
  constructor
  · rintro ⟨entity, listed, use⟩
    obtain ⟨role, present, rfl, body, output⟩ := realized.exists_role listed
    rw [body, output] at use
    rcases use with ⟨rfl, puts⟩ | ⟨rfl, -, reads⟩
    · obtain ⟨bus, found, isSignal⟩ := bus?_iff.mpr (.inl ⟨rfl, puts⟩)
      exact ⟨role, role.outlet, bus, present, rfl, found, isSignal⟩
    · obtain ⟨bus, found, isSignal⟩ := bus?_iff.mpr (.inr ⟨rfl, reads⟩)
      exact ⟨role, .one, bus, present, rfl, found, isSignal⟩
  · rintro ⟨role, port, bus, present, rfl, found, isSignal⟩
    have listed := realized.place_mem present
    refine ⟨role.place geometry, listed, ?_⟩
    rw [realized.body_eq role present, realized.output_place present]
    rcases bus?_iff.mp ⟨bus, found, isSignal⟩ with ⟨rfl, puts⟩ | ⟨rfl, reads⟩
    · exact .inl ⟨rfl, puts⟩
    · exact .inr ⟨rfl, realized.not_wild listed, reads⟩

/-- An endpoint is on a network of its bus. -/
theorem exists_has
    (realized : Realized geometry board members)
    (present : role.In geometry)
    (found : bus? (role, port) = some bus) :
    ∃ network, board.Attached (role.point geometry port) network ∧
      bus.Has geometry board network := by
  obtain ⟨color, belongs⟩ : ∃ color, (net geometry color (role, port)).bus? = some bus :=
    exists_net_of_bus? found
  have laid : net geometry color (role, port) ≠ .loose := by
    rw [← isSome_bus?_iff, belongs]
    rfl
  obtain ⟨network, atColor⟩ := realized.exists_network? present laid
  exact ⟨network, ⟨color, atColor⟩, color, role, port, present, atColor, belongs⟩

end Realized

/-- A group that has the networks of a bus and all endpoints that use it. -/
structure Bus.IsGroup (geometry : Geometry) (board : Board) (bus : Bus) (group : Group) : Prop where
  mem_networks_iff : ∀ network, network ∈ group.networks ↔ bus.Has geometry board network
  mem_points_iff : ∀ point, point ∈ group.points ↔
    ∃ (role : Role) (port : Port), role.In geometry ∧ bus? (role, port) = some bus ∧
      point = some (role.point geometry port)

namespace Realized

variable {geometry : Geometry} {board : Board} {members : List Nat} {bus : Bus} {signal : Signal}

open SignalGroups

theorem isGroup_of_isGroupOf
    (realized : Realized geometry board members)
    (rows : 1 ≤ geometry.size)
    {anchor : Nat}
    (has : bus.Has geometry board anchor)
    {group : Group}
    (isGroup : IsGroupOf board members bus.signal anchor group) :
    bus.IsGroup geometry board group where
  mem_networks_iff := by
    intro network
    rw [isGroup.mem_networks_iff, realized.bound_iff rows has]
  mem_points_iff := by
    intro point
    rw [isGroup.mem_points_iff]
    simp only [realized.bound_iff rows has, realized.uses_iff]
    constructor
    · rintro ⟨_, network, rfl, ⟨role, port, used, present, rfl, found, isSignal⟩, attached, hasIt⟩
      obtain ⟨other, otherAttached, usedHas⟩ := realized.exists_has present found
      obtain rfl := realized.bus_eq_of_attached present (Option.isSome_of_eq_some found)
        otherAttached attached usedHas hasIt isSignal
      exact ⟨role, port, present, found, rfl⟩
    · rintro ⟨role, port, present, found, rfl⟩
      obtain ⟨network, attached, hasIt⟩ := realized.exists_has present found
      exact ⟨_, network, rfl, ⟨role, port, bus, present, rfl, found, rfl⟩, attached, hasIt⟩

/-- The groups of a signal are its buses. -/
theorem groups_are_buses
    (realized : Realized geometry board members)
    (rows : 1 ≤ geometry.size)
    (recorded : board.Recorded members)
    {collection : Collection}
    (settled : Settled board members signal collection) :
    ∃ buses : List Bus, buses.Perm ((Bus.all geometry).filter (·.signal = signal)) ∧
      List.Forall₂ (Bus.IsGroup geometry board) buses collection.groups := by
  have wellformed := settled.grouped.wellformed
  have carried : ∀ root ∈ collection.roots, ∃ bus : Bus, bus.signal = signal ∧
      ∃ anchor, collection.home anchor = some root ∧ bus.Has geometry board anchor := by
    intro root isRoot
    obtain ⟨anchor, atHome⟩ := settled.exists_home_of_mem_roots recorded isRoot
    obtain ⟨bus, has, isSignal⟩ := (realized.known_iff rows).mp
      ((settled.known_iff anchor).mp (Option.isSome_of_eq_some atHome))
    exact ⟨bus, isSignal, anchor, atHome, has⟩
  choose! busOf isSignal anchor atHome hasAnchor using carried
  -- The bus of a group has a network exactly if the group has it.
  have home_iff {root network : Nat} (isRoot : root ∈ collection.roots) :
      collection.home network = some root ↔ (busOf root).Has geometry board network := by
    have known := (settled.known_iff _).mp (Option.isSome_of_eq_some (atHome root isRoot))
    have boundIff : board.Bound members (busOf root).signal (anchor root) network ↔
        (busOf root).Has geometry board network := realized.bound_iff rows (hasAnchor root isRoot)
    rw [← boundIff, isSignal root isRoot, ← settled.together_iff known]
    constructor
    · intro networkHome
      exact ⟨root, atHome root isRoot, networkHome⟩
    · rintro ⟨shared, anchorHome, networkHome⟩
      rw [networkHome, ← anchorHome, atHome root isRoot]
  refine ⟨collection.roots.map busOf, ?_, ?_⟩
  · have distinct : (collection.roots.map busOf).Nodup := by
      refine List.Nodup.map_on ?_ (List.nodup_range.filter _)
      intro first isFirst second isSecond same
      have shared := (home_iff isSecond).mpr (same ▸ hasAnchor first isFirst)
      rw [atHome first isFirst] at shared
      exact Option.some.inj shared
    refine (List.perm_ext_iff_of_nodup distinct ((Bus.nodup_all geometry).filter _)).mpr ?_
    intro bus
    simp only [List.mem_map, List.mem_filter, decide_eq_true_eq]
    constructor
    · rintro ⟨root, isRoot, rfl⟩
      exact ⟨mem_all_of_has (hasAnchor root isRoot), isSignal root isRoot⟩
    · rintro ⟨listed, rfl⟩
      obtain ⟨start, -, has⟩ := realized.exists_has (in_source listed) (bus?_source bus)
      obtain ⟨root, startHome⟩ := Option.isSome_iff_exists.mp
        ((settled.known_iff start).mpr ((realized.known_iff rows).mpr ⟨bus, has, rfl⟩))
      have isRoot := wellformed.home_mem_roots startHome
      exact ⟨root, isRoot, realized.has_unique ((home_iff isRoot).mp startHome) has⟩
  · rw [Collection.groups_eq, List.forall₂_map_left_iff, List.forall₂_map_right_iff,
      List.forall₂_same]
    intro root isRoot
    have isGroup := (settled.isGroupOf recorded (atHome root isRoot)).2
    rw [← isSignal root isRoot] at isGroup
    exact realized.isGroup_of_isGroupOf rows (hasAnchor root isRoot) isGroup

/-- The signals of a memory are those of its buses. -/
theorem mem_keys_iff
    (realized : Realized geometry board members)
    {groups : SignalGroups}
    (isGroups : groups = members.foldl (addReaders board)
      (members.foldl (addOutputs board) SignalMap.empty)) :
    signal ∈ SignalMap.keys groups ↔ signal = .control ∨ signal = .value := by
  have present : Role.pulse.In geometry := trivial
  rw [mem_keys_extract isGroups]
  simp only [realized.uses_iff]
  constructor
  · rintro ⟨_, _, _, bus, -, -, -, rfl⟩
    cases bus <;> simp
  · rintro (rfl | rfl)
    · exact ⟨_, .pulse, .two, .write, present, rfl, rfl, rfl⟩
    · exact ⟨_, .pulse, .one, .clock, present, rfl, rfl, rfl⟩

end Realized

theorem Blueprint.Holds.recorded
    {blueprint : Blueprint}
    {bank : Bank}
    (holds : blueprint.Holds bank)
    (rows : 1 ≤ bank.geometry.size) :
    blueprint.design.board.Recorded blueprint.arena.members := by
  refine Board.recorded_of_isConnected fun entity listed => ⟨holds.isCombinator rows listed, ?_⟩
  intro required isRequired
  have isPort : required.1 ∈ (blueprint.design.board.entity entity).body.ports := by
    rw [← Board.map_requiredPorts (holds.isCombinator rows listed)]
    exact List.mem_map_of_mem isRequired
  obtain ⟨color, other, -, network, found, -⟩ := holds.exists_partner rows listed isPort
  exact Board.isConnected_iff.mpr ⟨network, color, found⟩

/-- A memory that is accepted can be built and wired, and its signals can be grouped. The control signal
has a group for the write pulse and one for the decoded address of every read port. The value signal
has groups for the clock, the write address, and the data from where it is written to where it is
read, and one for the address of every read port. -/
theorem Blueprint.groups_of_memory
    {spec : MemorySpec}
    (small : spec.Small)
    (addressed : 1 ≤ spec.addressBits.toInt)
    {cell : Cell}
    {nets : Nets}
    (made : spec.cell.run {} = .ok cell nets)
    {bank : Bank}
    (accepted : Bank.ofCell cell 0 = .ok bank)
    (columns : Int) :
    ∃ blueprint groups,
      Blueprint.ofSpec spec columns = .ok blueprint ∧ blueprint.groups = .ok groups ∧
      (∀ signal, signal ∈ SignalMap.keys groups ↔ signal = .control ∨ signal = .value) ∧
      (groups.collection .control).groups.length = 1 + spec.geometry.readPorts ∧
      (groups.collection .value).groups.length = 3 + spec.geometry.readPorts ∧
      ∀ signal, ∃ buses : List Bus,
        buses.Perm ((Bus.all spec.geometry).filter (·.signal = signal)) ∧
          List.Forall₂ (Bus.IsGroup spec.geometry blueprint.design.board) buses
            (groups.collection signal).groups := by
  obtain ⟨blueprint, built, holds⟩ := ofSpec_run small addressed made accepted columns
  obtain ⟨bankEq, buildable⟩ := Bank.ofCell_generated small made accepted
  have sameGeometry : bank.geometry = spec.geometry := by rw [bankEq]; rfl
  have rows : 1 ≤ bank.geometry.size := sameGeometry ▸ buildable.size
  have realized := holds.realized rows
  have recorded := holds.recorded rows
  rw [sameGeometry] at rows realized
  obtain ⟨groups, isGroups⟩ : ∃ groups, groups =
      blueprint.arena.members.foldl (SignalGroups.addReaders blueprint.design.board)
        (blueprint.arena.members.foldl (SignalGroups.addOutputs blueprint.design.board)
          SignalMap.empty) := ⟨_, rfl⟩
  have grouped (signal : Signal) := realized.groups_are_buses rows recorded
    (SignalGroups.settled (realized.unambiguous rows signal) isGroups)
  have counted {signal : Signal} {count : Nat}
      (buses : ((Bus.all spec.geometry).filter (·.signal = signal)).length = count) :
      (groups.collection signal).groups.length = count := by
    obtain ⟨_, permuted, related⟩ := grouped signal
    rw [← related.length_eq, permuted.length_eq, buses]
  refine ⟨blueprint, groups, built, ?_, fun _ => realized.mem_keys_iff isGroups,
    counted (Bus.length_filter_control _), counted (Bus.length_filter_value _), grouped⟩
  rw [Blueprint.groups, SignalGroups.extract_eq fun _ => recorded.isCombinator, isGroups]
  rfl

/-- A memory of four rows with two read ports has three groups of the control signal and five of the
value signal. -/
theorem Blueprint.groups_of_memory_four_rows :
    ∃ blueprint groups,
      Blueprint.ofSpec ⟨3, 8, 4, 2, 2, 1⟩ 5 = .ok blueprint ∧ blueprint.groups = .ok groups ∧
      (groups.collection .control).groups.length = 3 ∧
      (groups.collection .value).groups.length = 5 := by
  let spec : MemorySpec := ⟨3, 8, 4, 2, 2, 1⟩
  have accepted : Ensures (spec.cell.run {})
      (fun cell _ => (Bank.ofCell cell 0).toOption.isSome) (fun _ _ => False) := by
    decide +kernel
  cases made : spec.cell.run {} with
  | error failure nets =>
      rw [made, Ensures] at accepted
      exact accepted.elim
  | ok cell nets =>
      rw [made, Ensures] at accepted
      cases bankEq : Bank.ofCell cell 0 with
      | error failure =>
          rw [bankEq] at accepted
          cases accepted
      | ok bank =>
          obtain ⟨blueprint, groups, built, extracted, -, controls, values, -⟩ :=
            groups_of_memory (by decide) (by decide) made bankEq 5
          exact ⟨blueprint, groups, built, extracted, controls, values⟩

end CircuitNetwork
