import CircuitNetwork.Proofs.Wire.Anchors

namespace CircuitNetwork.Board

/-!
# Built boards

A board is built by adding entities and connecting their ports, in any order. The
ports of entities know what the entities put out through them from the start, and
connections carry that on to the networks.
-/

variable {board other : Board}

/-- A board that is made of entities and connections between their ports. A refused connection
changes nothing. -/
inductive Built : Board → Prop where
  | empty : Built {}
  | add {board : Board}
      (built : Built board)
      (body : Body) :
      Built (board.add body)
  | connect {board : Board}
      (built : Built board)
      {connection : Connection}
      (ports : ∀ point, some point ∈ connection.points → board.HasPort point) :
      Built (board.attempt connection)

/-- The ports of entities know exactly the signals that are put out through them. -/
def Announces (board : Board) : Prop :=
  ∀ point, board.HasPort point → ∀ signal,
    (board.signals point).contains signal = true ↔
      point = board.output point.entity ∧
        signal ∈ (board.entity point.entity).body.outputs

/-- A new entity knows the signals that it puts out, at its output. -/
theorem contains_signals_ofBody
    (body : Body)
    {port : Port}
    (signal : Signal) :
    ((Entity.ofBody body).signals port).contains signal = true ↔
      port = body.outputPort ∧ signal ∈ body.outputs := by
  have announced : (SignalSet.ofList body.outputs).contains signal = true ↔
      signal ∈ body.outputs := by
    rw [SignalSet.ofList, SignalSet.contains_addAll]
    simp [SignalMap.contains]
  have silent : (SignalMap.empty : SignalSet).contains signal = false := rfl
  unfold Entity.ofBody
  cases isPort : body.outputPort <;> cases port <;> simp [Entity.signals, announced, silent]

theorem entity_add
    (board : Board)
    (body : Body)
    (id : Nat) :
    (board.add body).entity id = if id = board.size then .ofBody body else board.entity id := by
  simp only [entity, Board.add, size, Array.getD_eq_getD_getElem?, Array.getElem?_push]
  split
  · rfl
  · rfl

/-- A new entity announces what it puts out. -/
theorem Announces.add
    (announces : board.Announces)
    (body : Body) :
    (board.add body).Announces := by
  intro point hasPort signal
  rw [signals, output, entity_add]
  split
  · obtain ⟨id, port⟩ := point
    rw [contains_signals_ofBody, Entity.body_ofBody, Endpoint.mk.injEq]
    simp only [true_and]
  · rename_i isOld
    have inRange : point.entity < board.size := by
      have := hasPort.inRange
      simp only [size, Board.add, Array.size_push] at this isOld ⊢
      omega
    refine announces point ⟨inRange, ?_⟩ signal
    have isPort := hasPort.isPort
    rwa [entity_add, if_neg isOld] at isPort

theorem tidy_empty : Tidy {} :=
  (spans_of_unwired rfl).tidy

/-- A board that was built lists its endpoints where they point to. -/
theorem Built.tidy
    (built : board.Built) :
    board.Tidy := by
  induction built with
  | empty => exact tidy_empty
  | add _ body before => exact before.of_wires_eq rfl
  | connect _ _ before =>
      rw [Connection.attempt_eq]
      exact before.lay _

/-- The endpoints of the wires of a connection. -/
theorem ports_wires
    {connection : Connection}
    (ports : ∀ point, some point ∈ connection.points → board.HasPort point) :
    ∀ wire ∈ connection.wires, ∀ point ∈ wire.2, board.HasPort point := by
  intro wire isWire point isPoint
  have lays := Connection.mem_wires_iff.mp (show (wire.1, wire.2) ∈ connection.wires from isWire)
  exact ports point (lays.present ▸ List.mem_map_of_mem isPoint)

/-- A board that was built has wires at ports only. -/
theorem Built.anchored
    (built : board.Built) :
    board.Anchored := by
  induction built with
  | empty =>
      rintro color point ⟨network, found, -⟩
      simp [network?] at found
  | add _ body before => exact before.addAll [body]
  | connect built ports before =>
      rw [Connection.attempt_eq]
      exact before.lay built.tidy (ports_wires ports)

/-- On a board that was built, networks carry what their endpoints know. -/
theorem Built.loaded
    (built : board.Built) :
    board.Loaded := by
  induction built with
  | empty =>
      rintro color network point ⟨points, isRoster, -⟩
      cases isRoster
  | add built body before => exact before.addAll built.tidy built.anchored.bounded [body]
  | connect built _ before =>
      rw [Connection.attempt_eq]
      exact before.lay built.tidy _

theorem Built.announces
    (built : board.Built) :
    board.Announces := by
  induction built with
  | empty =>
      intro point hasPort
      exact absurd hasPort.inRange (Nat.not_lt_zero _)
  | add _ body before => exact before.add body
  | @connect board _ connection _ before =>
      rw [Connection.attempt_eq]
      have sameEntities := entities_lay board connection.wires
      intro point hasPort signal
      have sameEntity (id : Nat) : (board.lay connection.wires).entity id = board.entity id := by
        rw [entity, sameEntities, entity]
      simp only [signals, output, sameEntity]
      exact before point (hasPort.keeps (keeps_of_entities_eq sameEntities.symm)) signal

end CircuitNetwork.Board
