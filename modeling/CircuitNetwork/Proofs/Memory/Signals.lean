import CircuitNetwork.Proofs.Circuit.Start
import CircuitNetwork.Proofs.Circuit.Value
import CircuitNetwork.Proofs.Generator.Blueprint
import CircuitNetwork.Proofs.Memory.Networks

namespace CircuitNetwork

/-!
# The signals of a memory

What the networks of a memory carry, and what its entities compute from it in
one step.
-/

namespace Role

/-- The entities whose outputs are on a red network. -/
def redProducers (geometry : Geometry) : Net → List Role
  | .clock => [input 0]
  | .address => [input 1]
  | .data => [input 2]
  | .value row => [latch row, hold row]
  | .readAddress port => [input (port + 4)]
  | .decoded port => [decode port]
  | .output port => terminal port :: (List.range geometry.size).map (reader port)
  | _ => []

/-- The entities whose outputs are on a green network. -/
def greenProducers (geometry : Geometry) : Net → List Role
  | .enable => [input 3]
  | .pulse => [pulse]
  | .select row => [select row]
  | .value row => [latch row, hold row]
  | .output port => if geometry.size = 1 then [] else (List.range geometry.size).map (reader port)
  | _ => []

/-- The entities whose outputs are on a network. -/
def producers (geometry : Geometry) : Color → Net → List Role
  | .red => redProducers geometry
  | .green => greenProducers geometry

variable {geometry : Geometry}

/-- A network in a memory of a given geometry. -/
def Net.In (geometry : Geometry) : Net → Prop
  | .select row | .value row => row < geometry.size
  | .readAddress port | .decoded port | .output port => port < geometry.readPorts
  | _ => True

theorem in_net
    {role : Role}
    (present : role.In geometry)
    (color : Color)
    (port : Port) :
    (net geometry color (role, port)).In geometry := by
  cases role with
  | input index =>
      have inRange : index < 4 + geometry.readPorts := present
      rcases index with _ | _ | _ | _ | index <;> cases color <;> cases port <;>
        simp [net, redNet, greenNet, Net.In]
      omega
  | reader reading row =>
      obtain ⟨portInRange, inRange⟩ := present
      cases color with
      | red => cases port <;> exact portInRange
      | green =>
          cases port with
          | one => exact inRange
          | two =>
              simp only [net, greenNet]
              split
              · trivial
              · exact portInRange
  | _ => cases color <;> cases port <;> simp_all [net, redNet, greenNet, Net.In, Role.In]

theorem in_of_mem_producers
    {color : Color}
    {on : Net}
    (present : on.In geometry)
    {role : Role}
    (producer : role ∈ producers geometry color on) :
    role.In geometry := by
  cases color <;> cases on <;>
    simp_all [producers, redProducers, greenProducers, Role.In, Net.In] <;> grind [Role.In]

/-- The port that the entity of a role puts its values out through. -/
def outlet : Role → Port
  | input _ | terminal _ => .one
  | _ => .two

theorem outputPort_body
    (role : Role) :
    (role.body geometry).outputPort = role.outlet := by
  cases role <;> rfl

/-- The output of a producer of a network is on it. -/
theorem net_of_mem_producers
    {color : Color}
    {on : Net}
    {role : Role}
    (producer : role ∈ producers geometry color on) :
    on ≠ .loose ∧ net geometry color (role, role.outlet) = on := by
  cases color with
  | red =>
      cases on with
      | output port =>
          simp only [producers, redProducers, List.mem_cons, List.mem_map] at producer
          rcases producer with rfl | ⟨row, -, rfl⟩ <;> simp [net, redNet, outlet]
      | value row =>
          simp only [producers, redProducers, List.mem_cons, List.not_mem_nil, or_false] at producer
          rcases producer with rfl | rfl <;> simp [net, redNet, outlet]
      | _ => simp_all [producers, redProducers, net, redNet, outlet]
  | green =>
      cases on with
      | output port =>
          simp only [producers, greenProducers] at producer
          split at producer
          · cases producer
          · obtain ⟨row, -, rfl⟩ := List.mem_map.mp producer
            simp_all [net, greenNet, outlet]
      | value row =>
          simp only [producers, greenProducers, List.mem_cons, List.not_mem_nil, or_false] at producer
          rcases producer with rfl | rfl <;> simp [net, greenNet, outlet]
      | _ => simp_all [producers, greenProducers, net, greenNet, outlet]

/-- An entity whose output is on a network is a producer of it. -/
theorem mem_producers_net
    {color : Color}
    {role : Role}
    (present : role.In geometry)
    (laid : net geometry color (role, role.outlet) ≠ .loose) :
    role ∈ producers geometry color (net geometry color (role, role.outlet)) := by
  cases role with
  | input index =>
      rcases index with _ | _ | _ | _ | index <;> cases color <;>
        simp_all [producers, net, redNet, greenNet, redProducers, greenProducers, outlet]
  | reader port row =>
      have inRange := present.2
      cases color with
      | red => simp [producers, net, redNet, redProducers, outlet, inRange]
      | green =>
          by_cases single : geometry.size = 1
          · simp [net, greenNet, outlet, single] at laid
          · simp [producers, net, greenNet, greenProducers, outlet, inRange, single]
  | _ =>
      cases color <;>
        simp_all [producers, net, redNet, greenNet, redProducers, greenProducers, outlet]

theorem nodup_producers
    (color : Color)
    (on : Net) :
    (producers geometry color on).Nodup := by
  have readers (port : Nat) : ((List.range geometry.size).map (reader port)).Nodup :=
    List.nodup_range.map fun _ _ same => by cases same; rfl
  cases color with
  | red => cases on <;> simp [producers, redProducers, readers]
  | green => cases on <;> simp only [producers, greenProducers] <;> grind

end Role

open Role

/-- A board with the entities and networks of a memory, and the list of all entities. -/
structure Realized (geometry : Geometry) (board : Board) (members : List Nat) : Prop where
  tidy : board.Tidy
  member_iff : ∀ id, id ∈ members ↔ id < total geometry
  body_eq : ∀ role : Role, role.In geometry →
    (board.entity (role.place geometry)).body = role.body geometry
  joined_iff : ∀ (color : Color) (role other : Role) (port otherPort : Port),
    role.In geometry → other.In geometry →
      (board.Joined color (role.point geometry port) (other.point geometry otherPort) ↔
        net geometry color (role, port) ≠ .loose ∧
          net geometry color (role, port) = net geometry color (other, otherPort))

theorem Role.place_lt_total
    {geometry : Geometry}
    {role : Role}
    (present : role.In geometry) :
    role.place geometry < total geometry := by
  cases role with
  | decode port =>
      have inside := portPlace_lt present (show 0 < 1 + geometry.size by omega)
      simp only [place, total]
      omega
  | reader port row =>
      have inBlock : row + 1 < 1 + geometry.size := by
        have := present.2
        omega
      have inside := portPlace_lt present.1 inBlock
      simp only [place, readAt_eq, total]
      omega
  | _ =>
      simp only [In] at present
      simp only [place, total, Bank.entityCount, Bank.selectAt, Bank.latchAt, Bank.holdAt]
      omega

/-- A blueprint of a memory has the entities and networks of a memory. -/
theorem Blueprint.Holds.realized
    {blueprint : Blueprint}
    {bank : Bank}
    (holds : blueprint.Holds bank)
    (rows : 1 ≤ bank.geometry.size) :
    Realized bank.geometry blueprint.design.board blueprint.arena.members := by
  obtain ⟨wired, complete, -, -, alike⟩ := holds.wired
  refine ⟨complete.provided.formed.tidy.of_wires_eq alike.wires_eq, ?_, ?_, ?_⟩
  · intro id
    rw [holds.members_eq, mem_entityOrder]
    simp [allBodies, total, length_bodies_part, length_inputVectors, length_outputVectors,
      Nat.add_assoc]
  · intro role present
    rw [alike.body_eq, complete.shape.body_eq (getElem?_allBodies bank present),
      Entity.body_ofBody]
  · intro color role other port otherPort present otherPresent
    rw [← complete.joined_iff rows present otherPresent]
    simp only [Board.Joined, Board.network?, alike.wires_eq]

namespace Realized

variable {geometry : Geometry} {board : Board} {circuit : Circuit}

theorem output_place
    {members : List Nat}
    (realized : Realized geometry board members)
    {role : Role}
    (present : role.In geometry) :
    board.output (role.place geometry) = role.point geometry role.outlet := by
  rw [Board.output, realized.body_eq role present, outputPort_body]
  rfl

/-- The entities that contribute to a network. -/
theorem sources_eq
    (realized : Realized geometry board circuit.members)
    (color : Color)
    {role : Role}
    (present : role.In geometry)
    (port : Port) :
    circuit.sources board color (role.point geometry port) =
      ((producers geometry color (net geometry color (role, port))).map
        (Role.place geometry)).toFinset := by
  ext id
  simp only [Circuit.sources, Finset.mem_filter, List.mem_toFinset, List.mem_map]
  rw [realized.member_iff]
  constructor
  · rintro ⟨inRange, joined⟩
    obtain ⟨source, sourcePresent, rfl⟩ := exists_place inRange
    rw [realized.output_place sourcePresent,
      realized.joined_iff color _ _ _ _ sourcePresent present] at joined
    exact ⟨source, joined.2 ▸ mem_producers_net sourcePresent joined.1, rfl⟩
  · rintro ⟨source, producer, rfl⟩
    have sourcePresent := in_of_mem_producers (in_net present color port) producer
    obtain ⟨laid, same⟩ := net_of_mem_producers producer
    rw [realized.output_place sourcePresent,
      realized.joined_iff color _ _ _ _ sourcePresent present]
    exact ⟨place_lt_total sourcePresent, same ▸ laid, same⟩

/-- The value on a network is the sum of the outputs of its producers. -/
theorem value_eq
    (realized : Realized geometry board circuit.members)
    (sound : circuit.Sound)
    (color : Color)
    {role : Role}
    (present : role.In geometry)
    (port : Port)
    (signal : Signal) :
    circuit.value board (role.point geometry port) color signal =
      ((producers geometry color (net geometry color (role, port))).map fun source =>
        Frame.count (circuit.output (source.place geometry)) signal).sum := by
  have distinct : ((producers geometry color (net geometry color (role, port))).map
      (Role.place geometry)).Nodup := by
    refine (nodup_producers color _).map_on fun first firstListed second secondListed same => ?_
    have inNet := in_net present color port
    rw [← ofPlace_place (in_of_mem_producers inNet firstListed), same,
      ofPlace_place (in_of_mem_producers inNet secondListed)]
  rw [Circuit.value_eq_sum sound realized.tidy, realized.sources_eq color present,
    List.sum_toFinset _ distinct, List.map_map]
  rfl

end Realized

end CircuitNetwork
