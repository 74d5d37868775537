import CircuitNetwork.Groups.Renaming
import CircuitNetwork.Proofs.Arena
import CircuitNetwork.Proofs.Groups.Components
import CircuitNetwork.Proofs.Groups.Consistent
import CircuitNetwork.Proofs.Groups.Relabeling
import CircuitNetwork.Proofs.Wire.Anchors

namespace CircuitNetwork

/-!
# What renaming a group does

Renaming goes through the networks of a group and then through its endpoints. It
stops at the first endpoint that does not use the signal, and takes nothing back:
the networks are renamed by then, and so are the endpoints before that one. This
module says exactly what has changed, and what has not, however far renaming came.
-/

theorem SignalSet.contains_replace
    (set : SignalSet)
    (old new asked : Signal) :
    (set.replace old new).contains asked = true ↔
      asked = new ∧ set.contains old = true ∨ asked ≠ old ∧ set.contains asked = true := by
  unfold replace
  split
  · rename_i present
    simp only [add, SignalMap.contains, SignalMap.find?_insert, SignalMap.find?_erase] at *
    grind
  · grind

/-! ## Boards -/

namespace Board

/-- One signal was put in the place of another: in what some networks carry, in what some endpoints
know, and where the combinators behind some endpoints use it. Nothing else changed. -/
structure Replaced
    (board other : Board)
    (old new : Signal)
    (networks : List Nat)
    (points used : List (Option Endpoint)) :
    Prop where
  size_eq : other.size = board.size
  pointers_eq : other.pointers = board.pointers
  network_eq : ∀ network : Nat, other.networks[network]? =
    if network ∈ networks then
      board.networks[network]?.map fun carried =>
        { carried with signals := carried.signals.replace old new }
    else
      board.networks[network]?
  signals_eq : ∀ point, other.signals point =
    if some point ∈ points then (board.signals point).replace old new else board.signals point
  body_eq : ∀ id, (other.entity id).body =
    (board.entity id).body.relabel old new (some (board.input id) ∈ used)
      (some (board.output id) ∈ used)

namespace Replaced

variable {board other : Board} {old new : Signal}
variable {networks : List Nat} {points used : List (Option Endpoint)}

theorem refl
    (board : Board)
    (old new : Signal) :
    board.Replaced board old new [] [] [] where
  size_eq := rfl
  pointers_eq := rfl
  network_eq := by simp
  signals_eq := by simp
  body_eq := by simp [Body.relabel]

/-- The endpoints of networks stay. -/
theorem roster_eq
    (replaced : board.Replaced other old new networks points used)
    (network : Nat) :
    other.roster network = board.roster network := by
  rw [roster, replaced.network_eq, roster]
  split
  · rw [Option.map_map]
    rfl
  · rfl

theorem relabeled
    (replaced : board.Replaced other old new networks points used) :
    board.Relabeled other old new used :=
  ⟨replaced.roster_eq, replaced.pointers_eq, replaced.body_eq⟩

theorem trans
    {last : Board}
    {moreNetworks : List Nat}
    {morePoints moreUsed : List (Option Endpoint)}
    (first : board.Replaced other old new networks points used)
    (second : other.Replaced last old new moreNetworks morePoints moreUsed)
    (networksApart : networks.Disjoint moreNetworks)
    (pointsApart : points.Disjoint morePoints) :
    board.Replaced last old new (networks ++ moreNetworks) (points ++ morePoints)
      (used ++ moreUsed) where
  size_eq := second.size_eq.trans first.size_eq
  pointers_eq := second.pointers_eq.trans first.pointers_eq
  network_eq := by
    intro network
    rw [second.network_eq, first.network_eq]
    have apart := @networksApart network
    grind
  signals_eq := by
    intro point
    rw [second.signals_eq, first.signals_eq]
    have apart := @pointsApart (some point)
    grind
  body_eq := (first.relabeled.trans second.relabeled).body_eq

theorem hasPort
    (replaced : board.Replaced other old new networks points used)
    {point : Endpoint}
    (hasPort : board.HasPort point) :
    other.HasPort point where
  inRange := replaced.size_eq ▸ hasPort.inRange
  isPort := by
    rw [Body.ports, replaced.body_eq, Body.outputPort_relabel]
    exact hasPort.isPort

end Replaced

/-- Whether a signal can be renamed at an endpoint of a group. A constant can always be renamed,
another combinator only where it uses the signal. -/
def Takes (board : Board) (signal : Signal) : Option Endpoint → Prop
  | none => False
  | some point =>
      board.Speaks signal point ∨
        ∃ isOn filters, (board.entity point.entity).body = .constant isOn filters

instance decidableIsConstant :
    (body : Body) → Decidable (∃ isOn filters, body = .constant isOn filters)
  | .constant isOn filters => isTrue ⟨isOn, filters, rfl⟩
  | .decider _ | .arithmetic _ | .fixture _ => isFalse (by simp)

instance decidableTakes (board : Board) (signal : Signal) :
    (point : Option Endpoint) → Decidable (board.Takes signal point)
  | none => isFalse (fun takes => takes)
  | some _ => inferInstanceAs (Decidable (_ ∨ _))

/-- Renaming elsewhere does not change who uses a signal. -/
theorem Relabeled.speaks_iff
    {board other : Board}
    {old new : Signal}
    {points : List (Option Endpoint)}
    (relabeled : board.Relabeled other old new points)
    {point : Endpoint}
    (elsewhere : some point ∉ points)
    (signal : Signal) :
    other.Speaks signal point ↔ board.Speaks signal point := by
  unfold Speaks
  rw [relabeled.output_eq]
  refine or_congr (and_congr_right fun isOutput => ?_) (and_congr_right fun isInput => ?_)
  · rw [relabeled.outputs_eq, ← isOutput, if_neg elsewhere]
  · rw [relabeled.operands_eq, show some (board.input point.entity) = some point from
      congrArg some isInput.symm, if_neg elsewhere]

/-- Renaming elsewhere does not change where a signal can be renamed. -/
theorem Replaced.takes_iff
    {board other : Board}
    {old new : Signal}
    {networks : List Nat}
    {points used : List (Option Endpoint)}
    (replaced : board.Replaced other old new networks points used)
    {point : Option Endpoint}
    (elsewhere : point ∉ used)
    (signal : Signal) :
    other.Takes signal point ↔ board.Takes signal point := by
  cases point with
  | none => rfl
  | some point =>
      refine or_congr (replaced.relabeled.speaks_iff elsewhere signal) ?_
      rw [replaced.body_eq]
      exact Body.relabel_isConstant_iff ..

theorem lt_size_of_speaks
    {board : Board}
    {signal : Signal}
    {point : Endpoint}
    (speaks : board.Speaks signal point) :
    point.entity < board.size := by
  by_contra outside
  have silent : board.entity point.entity = default := by
    simp [Board.entity, Array.getD_eq_getD_getElem?, Array.getElem?_eq_none (Nat.le_of_not_lt outside)]
  simp only [Speaks, silent] at speaks
  rcases speaks with ⟨-, puts⟩ | ⟨-, reads⟩
  · cases puts
  · cases reads

/-- Only ports use signals. -/
theorem Speaks.hasPort
    {board : Board}
    {signal : Signal}
    {point : Endpoint}
    (speaks : board.Speaks signal point) :
    board.HasPort point := by
  have inRange := lt_size_of_speaks speaks
  rcases speaks with ⟨isOutput, -⟩ | ⟨isInput, -⟩
  · exact isOutput ▸ hasPort_output inRange
  · exact isInput ▸ hasPort_input inRange

end Board

/-! ## Members of a group -/

namespace Collection

open Board

variable {board : Board} {collection : Collection}

section Endpoints

variable {old : Signal} {point : Endpoint} {entity : Entity}

theorem renameBody_of_takes
    (hasPort : board.HasPort point)
    (takes : board.Takes old (some point))
    (new : Signal)
    (sameBody : entity.body = (board.entity point.entity).body) :
    renameBody old new entity point.port =
      .ok ((board.entity point.entity).body.relabel old new
        (some (board.input point.entity) ∈ [some point])
        (some (board.output point.entity) ∈ [some point])) := by
  obtain ⟨id, port⟩ := point
  obtain ⟨-, isPort⟩ := hasPort
  simp only [Takes, Speaks, Board.output, Board.input, Endpoint.mk.injEq, true_and,
    List.mem_singleton, Option.some.injEq] at *
  cases body : (board.entity id).body with
  | constant isOn filters =>
      obtain rfl : port = .one := by simpa [body, Body.ports, Body.outputPort] using isPort
      simp [renameBody, sameBody, body, Body.outputPort, Body.relabel, Body.renameOperands]
  | decider condition =>
      simp only [body, Body.outputPort, reduceCtorEq, exists_false, or_false] at takes
      cases port with
      | one =>
          have reads : old ∈ (Body.decider condition).operands := by simpa using takes
          simp [renameBody, sameBody, body, reads, Body.outputPort, Body.relabel]
      | two =>
          have puts : old ∈ (Body.decider condition).outputs := by simpa using takes
          simp [renameBody, sameBody, body, puts, Body.outputPort, Body.relabel]
  | arithmetic condition =>
      simp only [body, Body.outputPort, reduceCtorEq, exists_false, or_false] at takes
      cases port with
      | one =>
          have reads : old ∈ (Body.arithmetic condition).operands := by simpa using takes
          simp [renameBody, sameBody, body, reads, Body.outputPort, Body.relabel]
      | two =>
          have puts : old ∈ (Body.arithmetic condition).outputs := by simpa using takes
          simp [renameBody, sameBody, body, puts, Body.outputPort, Body.relabel]
  | fixture name =>
      simp [body, Body.outputs, Body.operands] at takes

theorem renameBody_of_not_takes
    (refuses : ¬board.Takes old (some point))
    (new : Signal)
    (sameBody : entity.body = (board.entity point.entity).body) :
    ∃ fault, renameBody old new entity point.port = .error fault := by
  obtain ⟨id, port⟩ := point
  simp only [Takes, Speaks, Board.output, Board.input, Endpoint.mk.injEq, true_and] at *
  cases body : (board.entity id).body with
  | constant isOn filters =>
      exact absurd (.inr ⟨isOn, filters, body⟩) refuses
  | decider condition =>
      simp only [body, Body.outputPort] at refuses
      cases port with
      | one =>
          have silent : old ∉ (Body.decider condition).operands := by simpa using refuses
          simp [renameBody, sameBody, body, silent]
      | two =>
          have silent : old ∉ (Body.decider condition).outputs := by simpa using refuses
          simp [renameBody, sameBody, body, silent]
  | arithmetic condition =>
      simp only [body, Body.outputPort] at refuses
      cases port with
      | one =>
          have silent : old ∉ (Body.arithmetic condition).operands := by simpa using refuses
          simp [renameBody, sameBody, body, silent]
      | two =>
          have silent : old ∉ (Body.arithmetic condition).outputs := by simpa using refuses
          simp [renameBody, sameBody, body, silent]
  | fixture name =>
      simp [renameBody, sameBody, body]

end Endpoints

/-- The first half of renaming at an endpoint. -/
theorem replaced_signals
    {point : Endpoint}
    (inRange : point.entity < board.size)
    (old new : Signal) :
    board.Replaced
      (board.modifyEntity point.entity fun entity =>
        entity.mapSignals (·.replace old new) point.port)
      old new [] [some point] [] := by
  have alike : board.Alike (board.modifyEntity point.entity fun entity =>
      entity.mapSignals (·.replace old new) point.port) :=
    board.alike_modifyEntity point.entity fun entity => by cases point.port <;> rfl
  refine ⟨alike.size_eq, by rw [alike.wires_eq], by simp [alike.wires_eq], ?_,
    by simp [alike.body_eq, Body.relabel]⟩
  rintro ⟨id, port⟩
  rw [Board.signals, entity_modifyEntity, Board.signals]
  obtain ⟨entity, renamed⟩ := point
  by_cases same : id = entity
  · subst same
    cases port <;> cases renamed <;> simp [inRange, Entity.signals, Entity.mapSignals]
  · simp [same]

/-- The second half of renaming at an endpoint. -/
theorem replaced_body
    {point : Endpoint}
    (inRange : point.entity < board.size)
    (old new : Signal) :
    board.Replaced
      (board.modifyEntity point.entity ({ · with
        body := (board.entity point.entity).body.relabel old new
          (some (board.input point.entity) ∈ [some point])
          (some (board.output point.entity) ∈ [some point]) }))
      old new [] [] [some point] where
  size_eq := by simp [Board.size, modifyEntity]
  pointers_eq := rfl
  network_eq := by simp [modifyEntity]
  signals_eq := by
    intro asked
    rw [Board.signals, entity_modifyEntity, Board.signals]
    split
    · rename_i same
      rw [same.1]
      cases asked.port <;> simp [Entity.signals]
    · simp
  body_eq := by
    intro id
    rw [entity_modifyEntity]
    split
    · rename_i same
      rw [same.1]
    · rename_i notEntity
      have isOther : id ≠ point.entity := fun same => notEntity ⟨same, inRange⟩
      have input : some (board.input id) ∉ [some point] := by
        simp only [List.mem_singleton, Option.some.injEq]
        rintro rfl
        exact isOther rfl
      have output : some (board.output id) ∉ [some point] := by
        simp only [List.mem_singleton, Option.some.injEq]
        rintro rfl
        exact isOther rfl
      rw [decide_eq_false input, decide_eq_false output]
      rfl

theorem renamePoint_of_takes
    {point : Option Endpoint}
    (ports : ∀ member, point = some member → board.HasPort member)
    (takes : board.Takes collection.signal point)
    (new : Signal) :
    ∃ other, renamePoint new point (board, collection) = .ok () (other, collection) ∧
      board.Replaced other collection.signal new [] [point] [point] := by
  cases point with
  | none => exact takes.elim
  | some point =>
      have hasPort := ports point rfl
      have marked := replaced_signals hasPort.inRange collection.signal new
      have renamed := renameBody_of_takes (marked.hasPort hasPort)
        ((marked.takes_iff List.not_mem_nil _).mpr takes) new rfl
      refine ⟨_, ?_, marked.trans (replaced_body (marked.hasPort hasPort).inRange _ _)
        (List.disjoint_nil_left _) (List.disjoint_nil_right _)⟩
      refine (bind_of_ok rfl).trans ((bind_of_ok rfl).trans ((bind_of_ok rfl).trans ?_))
      simp only [renamed]
      rfl

/-- An endpoint that does not use the signal has its signals renamed all the same. -/
theorem renamePoint_of_not_takes
    {point : Option Endpoint}
    (ports : ∀ member, point = some member → board.HasPort member)
    (refuses : ¬board.Takes collection.signal point)
    (new : Signal) :
    ∃ failure other, renamePoint new point (board, collection) = .error failure (other, collection) ∧
      board.Replaced other collection.signal new [] [point] [] := by
  cases point with
  | none =>
      refine ⟨_, board, rfl, rfl, rfl, by simp, by simp, by simp [Body.relabel]⟩
  | some point =>
      have hasPort := ports point rfl
      have marked := replaced_signals hasPort.inRange collection.signal new
      obtain ⟨fault, refused⟩ := renameBody_of_not_takes
        (mt (marked.takes_iff List.not_mem_nil _).mp refuses) new rfl
      refine ⟨(Failure.ofFault fault).within
        ("change signal " ++ collection.signal.text ++ " to " ++ new.text), _, ?_, marked⟩
      refine (bind_of_ok rfl).trans ((bind_of_ok rfl).trans ((bind_of_ok rfl).trans ?_))
      simp only [refused]
      rfl

/-- Renaming at endpoints that all use the signal. -/
theorem forM_renamePoint_of_takes
    {points : List (Option Endpoint)}
    (distinct : points.Nodup)
    (ports : ∀ member, some member ∈ points → board.HasPort member)
    (takes : ∀ point ∈ points, board.Takes collection.signal point)
    (new : Signal) :
    ∃ other, points.forM (renamePoint new) (board, collection) = .ok () (other, collection) ∧
      board.Replaced other collection.signal new [] points points := by
  induction points generalizing board with
  | nil =>
      exact ⟨board, rfl, .refl board _ new⟩
  | cons point rest inductionHypothesis =>
      obtain ⟨isNew, restDistinct⟩ := List.nodup_cons.mp distinct
      obtain ⟨between, first, replaced⟩ := renamePoint_of_takes
        (fun member isMember => ports member (by simp [isMember])) (takes point (by simp)) new
      obtain ⟨other, others, replacedRest⟩ := inductionHypothesis restDistinct
        (fun member isMember => replaced.hasPort (ports member (by simp [isMember])))
        (by
          intro next isNext
          have elsewhere : next ∉ [point] := by
            rw [List.mem_singleton]
            rintro rfl
            exact isNew isNext
          exact (replaced.takes_iff elsewhere _).mpr (takes next (by simp [isNext])))
      refine ⟨other, (forM_cons_of_ok first rest).trans others, ?_⟩
      exact replaced.trans replacedRest (List.disjoint_nil_left _)
        (List.singleton_disjoint.mpr isNew)

/-- Renaming ends at the first endpoint that does not use the signal. -/
theorem forM_renamePoint_of_not_takes
    {taken rest : List (Option Endpoint)}
    {refusing : Option Endpoint}
    (distinct : (taken ++ refusing :: rest).Nodup)
    (ports : ∀ member, some member ∈ taken ++ refusing :: rest → board.HasPort member)
    (takes : ∀ point ∈ taken, board.Takes collection.signal point)
    (refuses : ¬board.Takes collection.signal refusing)
    (new : Signal) :
    ∃ failure other,
      (taken ++ refusing :: rest).forM (renamePoint new) (board, collection) =
          .error failure (other, collection) ∧
        board.Replaced other collection.signal new [] (taken ++ [refusing]) taken := by
  obtain ⟨takenDistinct, -, apart⟩ := List.nodup_append.mp distinct
  have isNew : refusing ∉ taken := fun isTaken => apart _ isTaken _ (by simp) rfl
  obtain ⟨between, before, replaced⟩ := forM_renamePoint_of_takes takenDistinct
    (fun member isMember => ports member (by simp [isMember])) takes new
  obtain ⟨failure, other, refused, replacedLast⟩ := renamePoint_of_not_takes
    (fun member isMember => replaced.hasPort (ports member (by simp [isMember])))
    (mt (replaced.takes_iff isNew _).mp refuses) new
  refine ⟨failure, other, ?_, ?_⟩
  · exact (forM_append_of_ok before _).trans (bind_of_error refused)
  · simpa using replaced.trans replacedLast (List.disjoint_nil_left _)
      (List.disjoint_singleton.mpr isNew)

/-- Renaming on networks, which forgets whose they are. -/
theorem forM_renameNetwork_eq
    {networks : List Nat}
    (distinct : networks.Nodup)
    (board : Board)
    (collection : Collection)
    (new : Signal) :
    ∃ other,
      networks.forM (renameNetwork new) (board, collection) =
          .ok () (other,
            { collection with owners := collection.owners.filter (·.1 ∉ networks) }) ∧
        board.Replaced other collection.signal new networks [] [] := by
  induction networks generalizing board collection with
  | nil =>
      exact ⟨board, by simp, .refl board _ new⟩
  | cons network rest inductionHypothesis =>
      obtain ⟨isNew, restDistinct⟩ := List.nodup_cons.mp distinct
      have replaced : board.Replaced
          (board.modifyNetwork network fun carried =>
            { carried with signals := carried.signals.replace collection.signal new })
          collection.signal new [network] [] [] := by
        refine ⟨rfl, rfl, ?_, fun _ => rfl, by simp [Board.entity, modifyNetwork, Body.relabel]⟩
        intro asked
        rw [getElem?_modifyNetwork]
        simp only [List.mem_singleton]
      obtain ⟨other, others, replacedRest⟩ := inductionHypothesis restDistinct
        (board.modifyNetwork network fun carried =>
          { carried with signals := carried.signals.replace collection.signal new })
        { collection with owners := collection.owners.filter (·.1 ≠ network) }
      refine ⟨other, (bind_of_ok rfl).trans (others.trans ?_), ?_⟩
      · simp only [List.filter_filter]
        grind
      · exact replaced.trans replacedRest (List.singleton_disjoint.mpr isNew)
          (List.disjoint_nil_left _)

/-! ## Groups -/

/-- A collection in which a group was marked as renamed. -/
structure Marked (collection later : Collection) (root : Nat) : Prop where
  neat : ∀ signal, collection.Neat signal → later.Neat signal
  rooted : later.Rooted
  size_eq : later.slots.size = collection.slots.size
  root_eq : ∀ id, later.root id = collection.root id
  groupAt_eq : ∀ id, later.groupAt id = collection.groupAt id
  isRenamed_eq : ∀ id, later.isRenamed id =
    if id = root ∧ root < collection.slots.size then true else collection.isRenamed id

theorem SameForest.marked
    {found later : Collection}
    (same : SameForest collection found)
    (rooted : collection.Rooted)
    {root : Nat}
    (signalEq : later.signal = found.signal)
    (slotsEq : later.slots = (found.modifySlot root ({ · with renamed := true })).slots) :
    Marked collection later root := by
  have slotEq (asked : Nat) : later.slots[asked]? =
      if asked = root then found.slots[root]?.map ({ · with renamed := true })
      else found.slots[asked]? := by
    rw [slotsEq, getElem?_modifySlot]
  have kept {α : Type} (read : Slot → α)
      (ignores : ∀ slot : Slot, read { slot with renamed := true } = read slot) (asked : Nat) :
      later.slots[asked]?.map read = found.slots[asked]?.map read := by
    rw [slotEq]
    split
    · rename_i isRoot
      subst isRoot
      simp only [Option.map_map, Function.comp_def, ignores]
    · rfl
  have groupKept (asked : Nat) : later.slots[asked]?.map (·.group) =
      collection.slots[asked]?.map (·.group) :=
    (kept (·.group) (fun _ => rfl) asked).trans (same.map_slot_eq (·.group) (fun _ => rfl) asked)
  have parentKept (asked : Nat) : later.parent asked = found.parent asked := by
    rw [parent, kept (·.parent) (fun _ => rfl), parent]
  obtain ⟨rootedAfter, rootEq⟩ := (same.rooted rooted).of_parent_eq parentKept
  have sizeEq : later.slots.size = collection.slots.size := by
    rw [slotsEq, modifySlot, Array.size_modify, same.size_eq]
  refine ⟨?_, rootedAfter, sizeEq, ?_, ?_, ?_⟩
  · intro signal neat
    exact neat.of_group_eq (signalEq.trans same.signal_eq) groupKept
  · intro asked
    exact (rootEq asked).trans (same.root_eq rooted asked)
  · intro asked
    rw [groupAt, groupKept, groupAt]
  · intro asked
    rw [isRenamed, slotEq, ← same.isRenamed_eq, ← same.size_eq]
    by_cases isRoot : asked = root
    · subst isRoot
      by_cases inRange : asked < found.slots.size
      · simp [inRange]
      · simp [isRenamed, inRange]
    · simp [isRoot, isRenamed]

/-- Renaming a group that was not renamed goes through its networks and endpoints. -/
theorem rename_run
    {id root : Nat}
    {found : Collection}
    (finds : collection.find id = (root, found))
    (notRenamed : found.isRenamed root = false)
    (new : Signal)
    (board : Board) :
    rename id new (board, collection) =
      ((found.groupAt root).networks.forM (renameNetwork new) >>= fun _ =>
        (found.groupAt root).points.forM (renamePoint new))
          (board, found.modifySlot root ({ · with renamed := true })) := by
  refine (bind_of_ok rfl).trans ((bind_of_ok rfl).trans ?_)
  simp only [find] at finds
  simp only [finds, notRenamed, Bool.false_eq_true, if_false]
  exact bind_of_ok rfl

/-- Renaming a group that was renamed before changes nothing. -/
theorem rename_refused
    {id root : Nat}
    {found : Collection}
    (finds : collection.find id = (root, found))
    (renamed : found.isRenamed root = true)
    (new : Signal)
    (board : Board) :
    ∃ failure, rename id new (board, collection) = .error failure (board, found) := by
  refine ⟨.ofFault ⟨.invariantViolation, "group", "group " ++ toString root ++
    " of " ++ found.signal.text ++ " already renamed"⟩, ?_⟩
  refine (bind_of_ok rfl).trans ((bind_of_ok rfl).trans ?_)
  simp only [find] at finds
  simp only [finds, renamed, if_true]
  rfl

/-- A collection after a group was renamed: the group is marked, and its networks are nobody's. -/
structure Retired (collection later : Collection) (root : Nat) : Prop
    extends Marked collection later root where
  owners_eq : later.owners =
    collection.owners.filter (·.1 ∉ (collection.groupAt root).networks)

namespace Retired

variable {later : Collection} {root : Nat}

theorem lookup_filter_eq
    (entries : List (Nat × Nat))
    (networks : List Nat)
    (asked : Nat) :
    (entries.filter (·.1 ∉ networks)).lookup asked =
      if asked ∈ networks then none else entries.lookup asked := by
  induction entries with
  | nil => simp
  | cons entry rest inductionHypothesis =>
      obtain ⟨key, owner⟩ := entry
      simp only [List.filter_cons]
      grind

/-- The networks of a renamed group belong to no group. -/
theorem home_eq
    (retired : Retired collection later root)
    (network : Nat) :
    later.home network =
      if network ∈ (collection.groupAt root).networks then none else collection.home network := by
  rw [home, retired.owners_eq, lookup_filter_eq, funext retired.root_eq]
  split
  · rfl
  · rfl

theorem lookup_eq
    (retired : Retired collection later root)
    (rooted : collection.Rooted)
    (network : Nat) :
    (later.lookup (some network)).1 =
      if network ∈ (collection.groupAt root).networks then none
      else (collection.lookup (some network)).1 := by
  rw [retired.rooted.lookup_fst_eq, rooted.lookup_fst_eq]
  exact retired.home_eq network

/-- A renamed group is no longer a current one, and the other groups stay. -/
theorem groups_eq
    (retired : Retired collection later root)
    (rooted : collection.Rooted)
    {signal : Signal}
    (neat : collection.Neat signal) :
    later.groups = collection.groups.filter (·.id ≠ root) := by
  have rootsEq : later.roots = collection.roots.filter (· ≠ root) := by
    rw [retired.rooted.roots_eq, rooted.roots_eq, retired.size_eq, List.filter_filter]
    apply List.filter_congr
    intro id inRange
    rw [List.mem_range] at inRange
    rw [retired.root_eq, retired.isRenamed_eq]
    grind
  rw [Collection.groups_eq, Collection.groups_eq, rootsEq, List.filter_map,
    funext retired.groupAt_eq]
  congr 1
  apply List.filter_congr
  intro id _
  simp [(neat.groupAt id).id_eq]

end Retired

/-- What can come of renaming the group at a root. -/
inductive Renaming (board : Board) (collection : Collection) (root : Nat) (new : Signal) :
    EStateM.Result Failure (Board × Collection) Unit → Prop where
  /-- A group that was renamed before is refused. -/
  | refused {failure : Failure} {later : Collection}
      (isRenamed : collection.isRenamed root = true)
      (same : SameForest collection later) :
      Renaming board collection root new (.error failure (board, later))
  /-- All members are renamed. -/
  | complete {other : Board} {later : Collection}
      (live : collection.isRenamed root = false)
      (takes : ∀ point ∈ (collection.groupAt root).points, board.Takes collection.signal point)
      (replaced : board.Replaced other collection.signal new (collection.groupAt root).networks
        (collection.groupAt root).points (collection.groupAt root).points)
      (retired : Retired collection later root) :
      Renaming board collection root new (.ok () (other, later))
  /-- The members before the first one that does not use the signal are renamed. -/
  | broken {failure : Failure} {other : Board} {later : Collection}
      {taken rest : List (Option Endpoint)} {refusing : Option Endpoint}
      (live : collection.isRenamed root = false)
      (members : (collection.groupAt root).points = taken ++ refusing :: rest)
      (takes : ∀ point ∈ taken, board.Takes collection.signal point)
      (refuses : ¬board.Takes collection.signal refusing)
      (replaced : board.Replaced other collection.signal new (collection.groupAt root).networks
        (taken ++ [refusing]) taken)
      (retired : Retired collection later root) :
      Renaming board collection root new (.error failure (other, later))

theorem rename_of_isRenamed
    (rooted : collection.Rooted)
    {id : Nat}
    (renamed : collection.isRenamed (collection.root id) = true)
    (board : Board)
    (new : Signal) :
    ∃ failure later, rename id new (board, collection) = .error failure (board, later) ∧
      SameForest collection later := by
  obtain ⟨found, finds, same⟩ := rooted.find_eq id
  obtain ⟨failure, refused⟩ := rename_refused finds (same.isRenamed_eq _ ▸ renamed) new board
  exact ⟨failure, found, refused, same⟩

/-- Renaming a group that was not renamed goes through its endpoints last. -/
theorem rename_of_live
    (rooted : collection.Rooted)
    {signal : Signal}
    (neat : collection.Neat signal)
    {id : Nat}
    (live : collection.isRenamed (collection.root id) = false)
    (board : Board)
    (new : Signal) :
    ∃ between later,
      rename id new (board, collection) =
          (collection.groupAt (collection.root id)).points.forM (renamePoint new)
            (between, later) ∧
        board.Replaced between collection.signal new
          (collection.groupAt (collection.root id)).networks [] [] ∧
        Retired collection later (collection.root id) ∧
        later.signal = collection.signal := by
  obtain ⟨found, finds, same⟩ := rooted.find_eq id
  let marked := found.modifySlot (collection.root id) ({ · with renamed := true })
  let networks := (collection.groupAt (collection.root id)).networks
  obtain ⟨between, renamed, replaced⟩ := forM_renameNetwork_eq
    (neat.groupAt (collection.root id)).nodup_networks board marked new
  refine ⟨between, { marked with owners := marked.owners.filter (·.1 ∉ networks) }, ?_, ?_,
    ⟨same.marked rooted rfl rfl, ?_⟩, same.signal_eq⟩
  · rw [rename_run finds (same.isRenamed_eq _ ▸ live), same.groupAt_eq]
    exact bind_of_ok renamed
  · rw [← same.signal_eq]
    exact replaced
  · exact congrArg (List.filter _) same.owners_eq

/-- The networks of a group were renamed and the group is out of use, whatever became of its
endpoints. -/
structure Withdrawn
    (board : Board)
    (collection : Collection)
    (root : Nat)
    (new : Signal)
    (final : Board × Collection) :
    Prop where
  network_eq : ∀ network : Nat, final.1.networks[network]? =
    if network ∈ (collection.groupAt root).networks then
      board.networks[network]?.map fun carried =>
        { carried with signals := carried.signals.replace collection.signal new }
    else
      board.networks[network]?
  retired : Retired collection final.2 root

/-- Renaming endpoints leaves the networks and the collection as they are. -/
theorem ensures_renamePoint
    (new : Signal)
    (point : Option Endpoint)
    (start : Board × Collection) :
    Ensures (renamePoint new point start)
      (fun _ final => final.1.networks = start.1.networks ∧ final.2 = start.2)
      (fun _ final => final.1.networks = start.1.networks ∧ final.2 = start.2) := by
  obtain ⟨board, collection⟩ := start
  cases point with
  | none => exact ⟨rfl, rfl⟩
  | some point =>
      rw [show renamePoint new (some point) (board, collection) = _ from
        (bind_of_ok rfl).trans ((bind_of_ok rfl).trans (bind_of_ok rfl))]
      let marked := board.modifyEntity point.entity fun entity =>
        entity.mapSignals (·.replace collection.signal new) point.port
      cases renamed : renameBody collection.signal new (marked.entity point.entity) point.port with
      | error fault =>
          simp only [marked] at renamed
          simp only [renamed]
          exact ⟨rfl, rfl⟩
      | ok body =>
          simp only [marked] at renamed
          simp only [renamed]
          exact ⟨rfl, rfl⟩

/-- Renaming a group refuses before it changes anything, or renames all of its networks. -/
theorem ensures_rename
    (rooted : collection.Rooted)
    {signal : Signal}
    (neat : collection.Neat signal)
    (board : Board)
    (id : Nat)
    (new : Signal) :
    Ensures (rename id new (board, collection))
      (fun _ final => Withdrawn board collection (collection.root id) new final)
      (fun _ final => final.1 = board ∧ SameForest collection final.2 ∨
        Withdrawn board collection (collection.root id) new final) := by
  cases renamed : collection.isRenamed (collection.root id) with
  | true =>
      obtain ⟨failure, later, refused, same⟩ := rename_of_isRenamed rooted renamed board new
      rw [refused]
      exact .inl ⟨rfl, same⟩
  | false =>
      obtain ⟨between, later, run, replaced, retired, -⟩ :=
        rename_of_live rooted neat renamed board new
      have kept : Ensures ((collection.groupAt (collection.root id)).points.forM (renamePoint new)
          (between, later))
          (fun _ final => final.1.networks = between.networks ∧ final.2 = later)
          (fun _ final => final.1.networks = between.networks ∧ final.2 = later) := by
        refine Ensures.forM
          (fun state : Board × Collection => state.1.networks = between.networks ∧ state.2 = later)
          ?_ ⟨rfl, rfl⟩
        rintro point - ⟨other, _⟩ ⟨networksEq, rfl⟩
        rw [← networksEq]
        exact ensures_renamePoint new point (other, _)
      have withdrawn (final : Board × Collection)
          (same : final.1.networks = between.networks ∧ final.2 = later) :
          Withdrawn board collection (collection.root id) new final := by
        refine ⟨?_, same.2 ▸ retired⟩
        rw [same.1]
        exact replaced.network_eq
      rw [run]
      exact kept.mono (fun _ final same => withdrawn final same)
        (fun _ final same => .inr (withdrawn final same))

/-- The first endpoint that does not take a renaming, if there is one. -/
theorem exists_first_not_takes
    (board : Board)
    (signal : Signal)
    (points : List (Option Endpoint)) :
    (∀ point ∈ points, board.Takes signal point) ∨
      ∃ taken refusing rest, points = taken ++ refusing :: rest ∧
        (∀ point ∈ taken, board.Takes signal point) ∧ ¬board.Takes signal refusing := by
  induction points with
  | nil => simp
  | cons point rest inductionHypothesis =>
      by_cases takes : board.Takes signal point
      · rcases inductionHypothesis with all | ⟨taken, refusing, more, rfl, before, refuses⟩
        · exact .inl (List.forall_mem_cons.mpr ⟨takes, all⟩)
        · exact .inr ⟨point :: taken, refusing, more, rfl,
            List.forall_mem_cons.mpr ⟨takes, before⟩, refuses⟩
      · exact .inr ⟨[], point, rest, rfl, by simp, takes⟩

/-- What renaming does to a collection and a board. -/
theorem renaming_rename
    (rooted : collection.Rooted)
    {signal : Signal}
    (neat : collection.Neat signal)
    (id : Nat)
    (ports : ∀ member, some member ∈ (collection.groupAt (collection.root id)).points →
      board.HasPort member)
    (new : Signal) :
    Renaming board collection (collection.root id) new (rename id new (board, collection)) := by
  by_cases renamed : collection.isRenamed (collection.root id) = true
  · obtain ⟨failure, later, refused, same⟩ := rename_of_isRenamed rooted renamed board new
    exact refused ▸ .refused renamed same
  · have live := Bool.eq_false_iff.mpr renamed
    obtain ⟨between, later, run, replacedNetworks, retired, signalEq⟩ :=
      rename_of_live rooted neat live board new
    let group := collection.groupAt (collection.root id)
    have distinct := (neat.groupAt (collection.root id)).nodup_points
    have portsBetween (member : Endpoint) (isMember : some member ∈ group.points) :
        between.HasPort member :=
      replacedNetworks.hasPort (ports member isMember)
    have takes_iff (point : Option Endpoint) :
        between.Takes later.signal point ↔ board.Takes collection.signal point := by
      rw [signalEq]
      exact replacedNetworks.takes_iff List.not_mem_nil _
    have together {other : Board} {points used : List (Option Endpoint)}
        (replaced : between.Replaced other collection.signal new [] points used) :
        board.Replaced other collection.signal new group.networks points used := by
      simpa using replacedNetworks.trans replaced (List.disjoint_nil_right _)
        (List.disjoint_nil_left _)
    rcases exists_first_not_takes board collection.signal group.points with
      takes | ⟨taken, refusing, rest, members, takes, refuses⟩
    · obtain ⟨other, points, replaced⟩ := forM_renamePoint_of_takes distinct portsBetween
        (fun point isPoint => (takes_iff point).mpr (takes point isPoint)) new
      rw [signalEq] at replaced
      rw [run, points]
      exact .complete live takes (together replaced) retired
    · obtain ⟨failure, other, points, replaced⟩ := forM_renamePoint_of_not_takes
        (members ▸ distinct) (members ▸ portsBetween)
        (fun point isPoint => (takes_iff point).mpr (takes point isPoint))
        (mt (takes_iff refusing).mp refuses) new
      rw [signalEq] at replaced
      rw [run, members, points]
      exact .broken live members takes refuses (together replaced) retired

end Collection

end CircuitNetwork
