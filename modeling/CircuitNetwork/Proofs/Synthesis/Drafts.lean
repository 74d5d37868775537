import CircuitNetwork.Proofs.Synthesis.History
import CircuitNetwork.Proofs.Wire.Anchors

namespace CircuitNetwork

/-!
# Drafts

A draft is a design in which nothing has been connected yet. Nodes of all kinds
are added and registered in any way, so that they may ask for each other and for
themselves, and there may be other entities and wires on the board.
-/

/-- The entities of a node with wires inside it have two ports. -/
theorem NodeKind.Stands.outputPort_eq
    {board : Board}
    {kind : NodeKind}
    (stands : kind.Stands board)
    {wire : Color × List Endpoint}
    (inside : wire ∈ kind.wires)
    {entity : Nat}
    (member : entity ∈ kind.entities) :
    (board.entity entity).body.outputPort = .two := by
  cases kind with
  | memory bank => exact stands.2 entity member
  | gate label a b first =>
      obtain ⟨isTransformer, ⟨comparator, isComparison⟩ | ⟨operator, isOperation⟩⟩ := stands <;>
        simp only [entities, List.mem_cons, List.not_mem_nil, or_false] at member <;>
        rcases member with rfl | rfl <;> simp only [*] <;> rfl
  | mux a b select first =>
      obtain ⟨isTransformer, isFirst, isSecond⟩ := stands
      simp only [entities, List.mem_cons, List.not_mem_nil, or_false] at member
      rcases member with rfl | rfl | rfl <;> simp only [*] <;> rfl
  | _ => cases inside

namespace Design

open Relation

variable {design later : Design}

/-- The wires inside a new node join its ports. -/
theorem Pushes.anchored
    (pushes : Pushes design later)
    (tidy : design.board.Tidy)
    (anchored : design.board.Anchored) :
    later.board.Anchored := by
  cases pushes with
  | @push part kind entities wires stands ports =>
      refine anchored.install tidy fun wire laid point member => ?_
      have inside : (wire.1, wire.2.map (·.shift design.board.size)) ∈ kind.wires := by
        rw [wires]
        exact List.mem_map_of_mem laid
      have isEntity := NodeKind.mem_entities_of_mem_wires stands.hasRows inside
        (List.mem_map_of_mem member)
      refine ⟨?_, ?_⟩
      · rw [entities] at isEntity
        obtain ⟨place, inPart, same⟩ := List.mem_map.mp isEntity
        rw [← same]
        simp only [Board.size, Board.entities_install, Array.size_append, List.size_toArray,
          List.length_map]
        exact Nat.add_lt_add_left (List.mem_range.mp inPart) _
      · rw [Body.ports, stands.outputPort_eq inside isEntity]
        cases (point.shift design.board.size).port <;> simp

/-- A tap is put at a port of an entity that is there, or at nothing. -/
def Addition.Reaches (board : Board) : Addition → Prop
  | tap (some point) => board.HasPort point
  | _ => True

/-- What can be done to a design while nothing is connected. -/
inductive Drafts (design : Design) : Design → Prop where
  | add (addition : Addition) (reaches : addition.Reaches design.board) :
      Drafts design (after addition.run design)
  | use {table : Table} (names : design.Names table) :
      Drafts design { design with table := table }
  | create (body : Body) :
      Drafts design { design with board := design.board.add body }
  | wire
      (color : Color)
      {points : List Endpoint}
      (ports : ∀ point ∈ points, design.board.HasPort point) :
      Drafts design { design with board := design.board.wire color points }

/-- A design that was drafted from nothing. -/
def Drafted (design : Design) : Prop :=
  ReflTransGen Drafts {} design

/-- Only the addition of a tap adds a tap. -/
theorem Addition.tap_of_kind
    {addition : Addition}
    {id : Nat}
    {point : Option Endpoint}
    (isTap : ((after addition.run design).node id).kind = .tap point) :
    (design.node id).kind = .tap point ∨ addition = .tap point := by
  rcases addition.kind_cases design id with same | made
  · exact .inl (same ▸ isTap)
  · rw [isTap] at made
    cases addition <;> simp_all [Addition.Makes]

/-! ## What drafts are like -/

/-- Nothing has been begun, and networks, nodes and taps have only ports of entities that are there. -/
structure Fresh (design : Design) : Prop where
  formed : design.Formed
  idle : ∀ id, (design.node id).wiring = .idle
  grounded : design.Grounded
  taps :
    ∀ id point, (design.node id).kind = .tap (some point) → design.board.HasPort point
  anchored : design.board.Anchored
  loaded : design.board.Loaded

namespace Fresh

theorem empty : Fresh {} where
  formed := Unwired.empty.formed
  idle := Unwired.empty.idle
  grounded := Standing.empty.coherent.grounded
  taps id point isTap := by
    have outside : (({} : Design).node id).kind = .input [] 0 := rfl
    rw [outside] at isTap
    cases isTap
  anchored _ _ joined := by
    rw [Board.joined_self_iff] at joined
    simp [Board.network?] at joined
  loaded _ _ _ listed := by
    obtain ⟨points, found, -⟩ := listed
    simp [Board.roster] at found

theorem add
    (fresh : design.Fresh)
    (addition : Addition)
    (reaches : addition.Reaches design.board) :
    (after addition.run design).Fresh := by
  -- Taps are looked at separately, because their endpoints belong to other entities.
  have rest : let later := after addition.run design
      later.Formed ∧ (∀ id, (later.node id).wiring = .idle) ∧ later.Grounded ∧
        later.board.Anchored ∧ later.board.Loaded ∧ design.board.Keeps later.board := by
    refine addition.preserves
      (motive := fun later => later.Formed ∧ (∀ id, (later.node id).wiring = .idle) ∧
        later.Grounded ∧ later.board.Anchored ∧ later.board.Loaded ∧
        design.board.Keeps later.board)
      ⟨fresh.formed, fresh.idle, fresh.grounded, fresh.anchored, fresh.loaded,
        Board.keeps_of_entities_eq rfl⟩ ?_
    rintro before later ⟨formed, idle, grounded, anchored, loaded, keeps⟩ pushes
    have stillIdle (id : Nat) : (later.node id).wiring = .idle := by rw [pushes.wiring_eq, idle]
    have stillAnchored := pushes.anchored formed.tidy anchored
    cases pushes with
    | @push part kind entities wires stands ports =>
        refine ⟨formed.push part fun isPort => ?_, stillIdle, grounded.push entities stands ports,
          stillAnchored, loaded.install formed.tidy anchored.bounded part,
          keeps.trans (before.board.keeps_install part)⟩
        obtain ⟨bank, inRange, -⟩ := ports isPort
        exact inRange
  obtain ⟨formed, idle, grounded, anchored, loaded, keeps⟩ := rest
  refine ⟨formed, idle, grounded, fun id point isTap => ?_, anchored, loaded⟩
  rcases addition.tap_of_kind isTap with before | rfl
  · exact (fresh.taps id point before).keeps keeps
  · exact Board.HasPort.keeps reaches keeps

/-- The board may change as long as entities stay. -/
theorem withBoard
    (fresh : design.Fresh)
    {board : Board}
    (keeps : design.board.Keeps board)
    (tidy : board.Tidy)
    (anchored : board.Anchored)
    (loaded : board.Loaded) :
    Fresh { design with board := board } where
  formed :=
    { tidy := tidy
      known := fresh.formed.known
      registered := fresh.formed.registered
      memories := fresh.formed.memories
      ordinary := fresh.formed.ordinary }
  idle := fresh.idle
  grounded :=
    { bounded := fun inRange entity member =>
        Nat.lt_of_lt_of_le (fresh.grounded.bounded inRange entity member) keeps.size_le
      apart := fresh.grounded.apart
      stands := fun inRange => (fresh.grounded.stands inRange).of_body_eq fun entity member =>
        keeps.body_eq (fresh.grounded.bounded inRange entity member)
      ports := fresh.grounded.ports }
  taps id point isTap := (fresh.taps id point isTap).keeps keeps
  anchored := anchored
  loaded := loaded

theorem withTable
    (fresh : design.Fresh)
    {table : Table}
    (names : design.Names table) :
    Fresh { design with table := table } where
  formed :=
    { tidy := fresh.formed.tidy
      known := fun {bits} found => by
        obtain ⟨id, same, -⟩ := names bits none found
        cases same
      registered := fun {bits id} found => by
        obtain ⟨other, same, inRange⟩ := names bits (some id) found
        cases same
        exact inRange
      memories := fresh.formed.memories
      ordinary := fresh.formed.ordinary }
  idle := fresh.idle
  grounded := fresh.grounded.of_kind_eq rfl (fun _ => rfl) rfl (fun _ => rfl)
  taps := fresh.taps
  anchored := fresh.anchored
  loaded := fresh.loaded

end Fresh

theorem Drafts.fresh
    (drafts : Drafts design later)
    (fresh : design.Fresh) :
    later.Fresh := by
  have tidy := fresh.formed.tidy
  cases drafts with
  | add addition reaches => exact fresh.add addition reaches
  | use names => exact fresh.withTable names
  | create body =>
      exact fresh.withBoard (design.board.keeps_addAll [body])
        (tidy.of_wires_eq (design.board.toWires_addAll [body]))
        (fresh.anchored.addAll [body]) (fresh.loaded.addAll tidy fresh.anchored.bounded [body])
  | wire color ports =>
      exact fresh.withBoard (Board.keeps_of_entities_eq (design.board.entities_wire color _))
        (tidy.wire color _) (fresh.anchored.wire tidy color ports) (fresh.loaded.wire tidy color _)

theorem Drafted.fresh
    (drafted : design.Drafted) :
    design.Fresh := by
  induction drafted with
  | refl =>
      exact Fresh.empty
  | tail _ drafts inductionHypothesis =>
      exact drafts.fresh inductionHypothesis

/-- The value of a node is at an endpoint of an entity that is there. -/
theorem Fresh.outlet_lt
    (fresh : design.Fresh)
    {id : Nat}
    (inRange : id < design.nodes.size)
    {point : Endpoint}
    (outlet : (design.node id).kind.outlet = some point) :
    point.entity < design.board.size := by
  have bounded := fresh.grounded.bounded inRange
  cases kind : (design.node id).kind with
  | tap shown =>
      rw [kind] at outlet
      exact (fresh.taps id point (by rw [kind, ← outlet]; rfl)).inRange
  | memory bank =>
      rw [kind] at outlet
      cases outlet
  | readPort memory index bits shown =>
      rw [kind] at outlet
      obtain rfl := Option.some.inj outlet
      obtain ⟨bank, isMemory, inPorts, rfl⟩ := fresh.grounded.ports inRange kind
      have entities := fresh.grounded.bounded (inRange_of_kind_eq isMemory rfl)
      rw [isMemory] at entities
      have inside := Role.portPlace_lt inPorts (Nat.lt_add_left_iff_pos.mpr Nat.one_pos :
        bank.geometry.size < 1 + bank.geometry.size)
      exact entities _ (List.mem_map.mpr ⟨_, List.mem_range.mpr inside, (Nat.add_assoc _ _ _).symm⟩)
  | _ =>
      rw [kind] at outlet bounded
      obtain rfl := Option.some.inj outlet
      exact bounded _ (by simp [NodeKind.entities])

end Design

end CircuitNetwork
