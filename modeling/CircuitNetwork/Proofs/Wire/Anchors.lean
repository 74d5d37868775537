import CircuitNetwork.Proofs.Synthesis.Design
import CircuitNetwork.Proofs.Wire.Components

namespace CircuitNetwork

/-!
# Anchored networks

The networks of an anchored board join only ports of entities that stand on it.
Then new entities change nothing at the networks that are there, and what these
carry stays right.
-/

/-- The ports of an entity. -/
def Body.ports (body : Body) : List Port :=
  match body.outputPort with
  | .one => [.one]
  | .two => [.one, .two]

theorem Body.one_mem_ports
    (body : Body) :
    Port.one ∈ body.ports := by
  unfold ports
  split <;> simp

/-- The output of a body is one of its ports. -/
theorem Body.outputPort_mem_ports
    (body : Body) :
    body.outputPort ∈ body.ports := by
  unfold ports
  split <;> simp [*]

namespace Board

variable {board other : Board}

/-- A port of an entity on a board. -/
structure HasPort (board : Board) (point : Endpoint) : Prop where
  inRange : point.entity < board.size
  isPort : point.port ∈ (board.entity point.entity).body.ports

instance decidableHasPort (board : Board) (point : Endpoint) : Decidable (board.HasPort point) :=
  decidable_of_iff
    (point.entity < board.size ∧ point.port ∈ (board.entity point.entity).body.ports)
    ⟨fun both => ⟨both.1, both.2⟩, fun hasPort => ⟨hasPort.inRange, hasPort.isPort⟩⟩

/-- Only ports of entities on the board are wired. -/
def Anchored (board : Board) : Prop :=
  ∀ color point, board.Joined color point point → board.HasPort point

/-- Only endpoints of entities on the board are wired. -/
def Bounded (board : Board) : Prop :=
  ∀ color point, board.Joined color point point → point.entity < board.size

theorem Anchored.bounded
    (anchored : board.Anchored) :
    board.Bounded :=
  fun color point joined => (anchored color point joined).inRange

theorem hasPort_input
    {id : Nat}
    (inRange : id < board.size) :
    board.HasPort (board.input id) :=
  ⟨inRange, Body.one_mem_ports _⟩

theorem hasPort_output
    {id : Nat}
    (inRange : id < board.size) :
    board.HasPort (board.output id) :=
  ⟨inRange, Body.outputPort_mem_ports _⟩

/-- A board has all entities of another one, and the same bodies at their places. -/
structure Keeps (board other : Board) : Prop where
  size_le : board.size ≤ other.size
  body_eq : ∀ {id}, id < board.size → (other.entity id).body = (board.entity id).body

theorem Keeps.trans
    {last : Board}
    (first : board.Keeps other)
    (second : other.Keeps last) :
    board.Keeps last where
  size_le := Nat.le_trans first.size_le second.size_le
  body_eq inRange :=
    (second.body_eq (Nat.lt_of_lt_of_le inRange first.size_le)).trans (first.body_eq inRange)

/-- A port stays a port. -/
theorem HasPort.keeps
    {point : Endpoint}
    (hasPort : board.HasPort point)
    (keeps : board.Keeps other) :
    other.HasPort point where
  inRange := Nat.lt_of_lt_of_le hasPort.inRange keeps.size_le
  isPort := by
    rw [keeps.body_eq hasPort.inRange]
    exact hasPort.isPort

theorem keeps_of_entities_eq
    (same : other.entities = board.entities) :
    board.Keeps other where
  size_le := by simp [size, same]
  body_eq _ := by simp [entity, same]

/-- Which endpoints share a network depends only on the networks. -/
theorem joined_iff_of_wires_eq
    (same : other.toWires = board.toWires)
    {color : Color}
    {first second : Endpoint} :
    other.Joined color first second ↔ board.Joined color first second := by
  simp only [Joined, network?, same]

/-! ## Adding entities -/

/-- New entities leave the ones that are there. -/
theorem entity_addAll
    (board : Board)
    (bodies : List Body)
    {id : Nat}
    (inRange : id < board.size) :
    (board.addAll bodies).entity id = board.entity id := by
  rw [size] at inRange
  simp [entity, entities_addAll, Array.getElem?_append_left inRange]

theorem keeps_addAll
    (board : Board)
    (bodies : List Body) :
    board.Keeps (board.addAll bodies) where
  size_le := by simp [size, entities_addAll]
  body_eq inRange := by rw [entity_addAll board bodies inRange]

/-- New entities bring no wires. -/
theorem Anchored.addAll
    (anchored : board.Anchored)
    (bodies : List Body) :
    (board.addAll bodies).Anchored := by
  intro color point joined
  rw [joined_iff_of_wires_eq (toWires_addAll board bodies)] at joined
  exact (anchored color point joined).keeps (board.keeps_addAll bodies)

/-- The endpoints of a network are wired. -/
theorem Lists.joined
    (tidy : board.Tidy)
    {color : Color}
    {network : Nat}
    {point : Endpoint}
    (listed : board.Lists color network point) :
    board.Joined color point point :=
  ⟨network, tidy.network?_eq_some_iff.mpr listed, tidy.network?_eq_some_iff.mpr listed⟩

/-- New entities are on no network. -/
theorem Loaded.addAll
    (loaded : board.Loaded)
    (tidy : board.Tidy)
    (bounded : board.Bounded)
    (bodies : List Body) :
    (board.addAll bodies).Loaded := by
  intro color network point listed found isFound signal
  have sameNetworks := toWires_addAll board bodies
  simp only [Lists, roster, sameNetworks] at listed
  rw [sameNetworks] at isFound
  rw [loaded color network point listed found isFound signal]
  have sameSignals : ∀ other ∈ found.points,
      (board.addAll bodies).signals other = board.signals other := by
    intro other member
    have otherListed : board.Lists found.color network other :=
      ⟨found.points, by simp [roster, isFound], member⟩
    have inRange := bounded _ other (otherListed.joined tidy)
    simp only [signals, board.entity_addAll bodies inRange]
  constructor
  · rintro ⟨other, member, carried⟩
    exact ⟨other, member, by rwa [sameSignals other member]⟩
  · rintro ⟨other, member, carried⟩
    exact ⟨other, member, by rwa [← sameSignals other member]⟩

/-! ## Laying wires -/

/-- Wires change no entity. -/
theorem entities_lay
    (board : Board)
    (wires : List (Color × List Endpoint)) :
    (board.lay wires).entities = board.entities :=
  List.foldlRecOn (motive := fun (wired : Board) => wired.entities = board.entities) wires _ rfl
    fun _ same _ _ => by rw [entities_wire, same]

theorem Tidy.lay
    (tidy : board.Tidy)
    (wires : List (Color × List Endpoint)) :
    (board.lay wires).Tidy :=
  List.foldlRecOn (motive := Tidy) wires _ tidy fun _ before wire _ => before.wire wire.1 wire.2

/-- A wire between ports keeps a board anchored. -/
theorem Anchored.wire
    (anchored : board.Anchored)
    (tidy : board.Tidy)
    (color : Color)
    {points : List Endpoint}
    (ports : ∀ point ∈ points, board.HasPort point) :
    (board.wire color points).Anchored := by
  intro asked point joined
  have keeps := keeps_of_entities_eq (entities_wire board color points)
  rcases (tidy.joined_wire_iff color points asked point point).mp joined with
    before | ⟨rfl, ⟨wired, member, either⟩, -⟩
  · exact (anchored asked point before).keeps keeps
  · rcases either with rfl | shared
    · exact (ports point member).keeps keeps
    · exact (anchored asked point (shared.trans shared.symm)).keeps keeps

/-- Wires between ports keep a board anchored. -/
theorem Anchored.lay
    (anchored : board.Anchored)
    (tidy : board.Tidy)
    {wires : List (Color × List Endpoint)}
    (ports : ∀ wire ∈ wires, ∀ point ∈ wire.2, board.HasPort point) :
    (board.lay wires).Anchored := by
  have invariant := List.foldlRecOn (motive := fun (wired : Board) =>
    wired.entities = board.entities ∧ wired.Tidy ∧ wired.Anchored)
    wires (fun wired wire => wired.wire wire.1 wire.2) ⟨rfl, tidy, anchored⟩ (by
      rintro wired ⟨same, tidyBefore, anchoredBefore⟩ wire member
      refine ⟨by rw [entities_wire, same], tidyBefore.wire _ _, ?_⟩
      exact anchoredBefore.wire tidyBefore _ fun point isPoint =>
        (ports wire member point isPoint).keeps (keeps_of_entities_eq same))
  exact invariant.2.2

/-! ## Installing parts -/

/-- A part is installed entities first, and then its wires are laid. -/
theorem install_eq_lay
    (board : Board)
    (part : Part) :
    board.install part =
      (board.addAll part.bodies).lay
        (part.wires.map fun wire => (wire.1, wire.2.map (·.shift board.size))) := by
  rw [install, lay, List.foldl_map]

theorem keeps_install
    (board : Board)
    (part : Part) :
    board.Keeps (board.install part) := by
  rw [install_eq_lay]
  exact (board.keeps_addAll part.bodies).trans (keeps_of_entities_eq (entities_lay _ _))

/-- A part whose wires join ports of its own entities may be installed. -/
theorem Anchored.install
    (anchored : board.Anchored)
    (tidy : board.Tidy)
    {part : Part}
    (ports :
      ∀ wire ∈ part.wires, ∀ point ∈ wire.2,
        (board.install part).HasPort (point.shift board.size)) :
    (board.install part).Anchored := by
  have same := entities_lay (board.addAll part.bodies)
    (part.wires.map fun wire => (wire.1, wire.2.map (·.shift board.size)))
  rw [← install_eq_lay] at same
  rw [install_eq_lay]
  refine (anchored.addAll part.bodies).lay (tidy.of_wires_eq (toWires_addAll board _)) ?_
  intro wire laid point member
  obtain ⟨planned, isPlanned, rfl⟩ := List.mem_map.mp laid
  obtain ⟨inner, isInner, rfl⟩ := List.mem_map.mp member
  exact (ports planned isPlanned inner isInner).keeps (keeps_of_entities_eq same.symm)

/-- A part that is installed keeps networks loaded. -/
theorem Loaded.install
    (loaded : board.Loaded)
    (tidy : board.Tidy)
    (bounded : board.Bounded)
    (part : Part) :
    (board.install part).Loaded := by
  rw [install_eq_lay]
  exact (loaded.addAll tidy bounded part.bodies).lay
    (tidy.of_wires_eq (toWires_addAll board part.bodies)) _

end Board

end CircuitNetwork
