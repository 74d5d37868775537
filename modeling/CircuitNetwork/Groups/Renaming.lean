import CircuitNetwork.Groups.Extraction

namespace CircuitNetwork

/-!
# Renaming a group

The signal of a group is replaced by another one in everything that belongs to
the group: the signals that its networks carry, the signals that its endpoints
know, and the operands or outputs of the combinators behind them. The group is
then no longer one of the collection's.
-/

namespace Collection

/-- Put one signal in the place of another at an endpoint of a combinator. -/
def renameBody (old new : Signal) (entity : Entity) (port : Port) : Except Fault Body :=
  match entity.body with
  | .fixture _ => .error (SignalGroups.notCombinator entity)
  | .constant .. => .ok (entity.body.renameOutputs old new)
  | .decider _ | .arithmetic _ =>
      match port with
      | .one =>
          if entity.body.operands.contains old then
            .ok (entity.body.renameOperands old new)
          else
            .error ⟨.invariantViolation, entity.body.name, "no operand uses signal " ++ old.text⟩
      | .two =>
          if entity.body.outputs.contains old then
            .ok (entity.body.renameOutputs old new)
          else
            .error ⟨.invariantViolation, entity.body.name, "output signal is not " ++ old.text⟩

/-- Rename the signal that a network carries, and forget whose network it is. -/
def renameNetwork (new : Signal) (network : Nat) : EStateM Failure (Board × Collection) Unit :=
  modify fun (board, collection) =>
    (board.modifyNetwork network fun carried =>
      { carried with signals := carried.signals.replace collection.signal new },
     { collection with owners := collection.owners.filter (·.1 ≠ network) })

/-- Rename the signal of an endpoint. -/
def renamePoint
    (new : Signal)
    (point : Option Endpoint) :
    EStateM Failure (Board × Collection) Unit := do
  match point with
  | none => throw (.ofCrash .nullEndpoint)
  | some point =>
      let (_, collection) ← get
      let old := collection.signal
      modify fun (board, collection) =>
        (board.modifyEntity point.entity fun entity =>
          entity.mapSignals (·.replace old new) point.port, collection)
      let (board, _) ← get
      match renameBody old new (board.entity point.entity) point.port with
      | .error fault =>
          throw ((Failure.ofFault fault).within
            ("change signal " ++ old.text ++ " to " ++ new.text))
      | .ok body =>
          modify fun (board, collection) =>
            (board.modifyEntity point.entity ({ · with body := body }), collection)

/-- Rename the signal of a group. What was renamed before a failure stays renamed. -/
def rename (id : Nat) (new : Signal) : EStateM Failure (Board × Collection) Unit := do
  let root ← modifyGet fun (board, collection) =>
    let (root, collection) := collection.find id
    (root, (board, collection))
  let (_, collection) ← get
  if collection.isRenamed root then
    throw (.ofFault ⟨.invariantViolation, "group",
      "group " ++ toString root ++ " of " ++ collection.signal.text ++ " already renamed"⟩)
  modify fun (board, collection) =>
    (board, collection.modifySlot root ({ · with renamed := true }))
  let group := collection.groupAt root
  group.networks.forM (renameNetwork new)
  group.points.forM (renamePoint new)

/-- Rename the signal of the group that a number stands for. -/
def renameNumber (number : Int) (new : Signal) : EStateM Failure (Board × Collection) Unit := do
  match (← get).2.id? number with
  | some id => rename id new
  | none => throw (.ofCrash .unknownGroup)

end Collection

namespace SignalGroups

/-- There is no collection for a signal. -/
def unknownSignal (signal : Signal) : Fault :=
  ⟨.invariantViolation, "signal " ++ signal.text, "no such signal group collection"⟩

/-- Rename one group of a signal. -/
def rename (number : Int) (old new : Signal) : EStateM Failure (Board × SignalGroups) Unit := do
  let (board, groups) ← get
  match groups.find? old with
  | none => throw (.ofFault (unknownSignal old))
  | some collection =>
      match (Collection.renameNumber number new).run (board, collection) with
      | .ok _ (board, collection) => set (board, groups.insert old collection)
      | .error failure (board, collection) =>
          set (board, groups.insert old collection)
          throw failure

end SignalGroups

end CircuitNetwork
