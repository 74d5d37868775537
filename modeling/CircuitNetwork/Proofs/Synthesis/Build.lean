import CircuitNetwork.Proofs.Synthesis.Provided

namespace CircuitNetwork.Design

/-!
# Building designs

Nodes are added and registered before anything is wired. Then the networks are
those of the wires inside the nodes.
-/

variable {design : Design}

/-- A design in which no node has been wired. -/
structure Unwired (design : Design) : Prop where
  formed : design.Formed
  idle : ∀ id, (design.node id).wiring = .idle
  spanned :
    ∃ wires, design.board.Spans wires ∧
      ∀ wire ∈ wires, ∃ id, id < design.nodes.size ∧ wire ∈ (design.node id).kind.wires
  inside :
    ∀ id, id < design.nodes.size →
      ∀ wire ∈ (design.node id).kind.wires, Carries design.board wire

namespace Unwired

/-- Nothing is wired in an empty design. -/
theorem empty : Unwired {} where
  formed :=
    { tidy := (Board.spans_of_unwired rfl).tidy
      known := by simp [Table.find?]
      registered := by simp [Table.find?]
      memories := by
        intro id memory index bits point kind
        cases kind
      ordinary := by
        intro id failure failed
        cases failed }
  idle _ := rfl
  spanned := ⟨[], Board.spans_of_unwired rfl, by simp⟩
  inside id inRange := absurd inRange (Nat.not_lt_zero id)

/-- Without wirings, all wires are inside of nodes. -/
theorem woven
    (unwired : design.Unwired) :
    design.Woven where
  spanned := by
    obtain ⟨wires, spans, owned⟩ := unwired.spanned
    refine ⟨wires, spans, fun wire member => ?_⟩
    obtain ⟨id, inRange, inside⟩ := owned wire member
    exact ⟨id, inRange, .inl inside⟩
  inside := unwired.inside
  settled id done := by
    rw [unwired.idle id] at done
    cases done

/-- A new node brings the wires inside of it and no others. -/
theorem push
    (unwired : design.Unwired)
    {part : Part}
    {kind : NodeKind}
    (wires : kind.wires = part.wiresAt design.board.size)
    (memories :
      ∀ {memory index bits point},
        kind = .readPort memory index bits point → memory < design.nodes.size) :
    (design.push part kind).Unwired where
  formed := unwired.formed.push part memories
  idle id := by
    rw [node_push]
    split
    · rfl
    · exact unwired.idle id
  spanned := by
    obtain ⟨laid, spans, owned⟩ := unwired.spanned
    refine ⟨_, spans.install part, fun wire member => ?_⟩
    rcases List.mem_append.mp member with before | added
    · obtain ⟨id, inRange, inside⟩ := owned wire before
      refine ⟨id, by rw [size_push]; omega, ?_⟩
      rw [node_push, if_neg (by omega)]
      exact inside
    · refine ⟨design.nodes.size, by simp, ?_⟩
      rw [node_push, if_pos rfl, wires]
      exact added
  inside := (unwired.woven.push unwired.formed wires).inside

/-- Registering a producer lays no wire. -/
theorem enter
    (unwired : design.Unwired)
    (bits : List Bit)
    {id : Nat}
    (inRange : id < design.nodes.size) :
    (design.enter bits (some id)).Unwired :=
  ⟨unwired.formed.enter bits inRange, unwired.idle, unwired.spanned, unwired.inside⟩

end Unwired

/-- What a design consists of, apart from wires and the state of wirings. -/
structure HasShape
    (design : Design)
    (kinds : List NodeKind)
    (bodies : List Body)
    (entries : List (String × Option Nat)) :
    Prop where
  kinds_eq : design.nodes.toList.map (·.kind) = kinds
  bodies_eq : design.board.entities.toList = bodies.map Entity.ofBody
  entries_eq : design.table.entries = entries

namespace HasShape

variable {kinds : List NodeKind} {bodies : List Body} {entries : List (String × Option Nat)}

theorem empty : ({} : Design).HasShape [] [] [] :=
  ⟨rfl, rfl, rfl⟩

theorem size_eq
    (shape : design.HasShape kinds bodies entries) :
    design.nodes.size = kinds.length := by
  simpa using congrArg List.length shape.kinds_eq

theorem board_size_eq
    (shape : design.HasShape kinds bodies entries) :
    design.board.size = bodies.length := by
  simpa [Board.size] using congrArg List.length shape.bodies_eq

/-- A new node is the last one, and its combinators are the last ones on the board. -/
theorem push
    (shape : design.HasShape kinds bodies entries)
    (part : Part)
    (kind : NodeKind) :
    (design.push part kind).HasShape (kinds ++ [kind]) (bodies ++ part.bodies) entries where
  kinds_eq := by simp [Design.push, shape.kinds_eq]
  bodies_eq := by simp [Design.push, Board.entities_install, shape.bodies_eq]
  entries_eq := shape.entries_eq

/-- A producer of a new vector is the last entry of the table. -/
theorem enter
    (shape : design.HasShape kinds bodies entries)
    {bits : List Bit}
    (missing : design.table.find? bits = none)
    (node : Option Nat) :
    (design.enter bits node).HasShape kinds bodies
      (entries ++ [(Bit.vectorText bits, node)]) where
  kinds_eq := shape.kinds_eq
  bodies_eq := shape.bodies_eq
  entries_eq := by
    rw [Design.enter, Table.entries_add missing, shape.entries_eq]

/-- Wiring leaves the shape of a design. -/
theorem sameParts
    (shape : design.HasShape kinds bodies entries)
    {later : Design}
    (same : SameParts design later) :
    later.HasShape kinds bodies entries where
  kinds_eq := by
    rw [← shape.kinds_eq]
    apply List.ext_getElem
    · simp [same.size_eq]
    · intro index inLater inDesign
      have sameKind := same.kind_eq index
      simp only [List.length_map, Array.length_toList] at inLater inDesign
      simpa [node, inLater, inDesign] using sameKind
  bodies_eq := by rw [same.entities_eq, shape.bodies_eq]
  entries_eq := by rw [same.table_eq, shape.entries_eq]

/-- Nodes are read off the shape. -/
theorem kind_eq
    (shape : design.HasShape kinds bodies entries)
    {id : Nat}
    {kind : NodeKind}
    (found : kinds[id]? = some kind) :
    (design.node id).kind = kind := by
  rw [← shape.kinds_eq, List.getElem?_map, Array.getElem?_toList] at found
  obtain ⟨node, atId, rfl⟩ := Option.map_eq_some_iff.mp found
  simp [Design.node, atId]

theorem body_eq
    (shape : design.HasShape kinds bodies entries)
    {id : Nat}
    {body : Body}
    (found : bodies[id]? = some body) :
    design.board.entity id = .ofBody body := by
  have atId : design.board.entities[id]? = some (.ofBody body) := by
    rw [← Array.getElem?_toList, shape.bodies_eq, List.getElem?_map, found]
    rfl
  simp [Board.entity, atId]

/-- Producers are looked up in the entries of the shape. -/
theorem find?_eq
    (shape : design.HasShape kinds bodies entries)
    (bits : List Bit) :
    design.table.find? bits = entries.lookup (Bit.vectorText bits) := by
  rw [Table.find?, shape.entries_eq]

end HasShape

end CircuitNetwork.Design
