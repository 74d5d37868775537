import CircuitNetwork.Proofs.Synthesis.Growth

namespace CircuitNetwork

/-!
# The order of calls

The wires that calls lay do not depend on the order of the calls. Whatever the
order, the nodes that the calls lead to are wired, and each of them gets wires
from the producers of its inputs. Only the literals that are made on the way may
come in another order, and they are told apart by their bits.
-/

namespace Board

variable {board : Board} {color : Color} {point : Endpoint} {signal : Signal}

/-- The network of an endpoint carries a signal. -/
def Transmits (board : Board) (color : Color) (point : Endpoint) (signal : Signal) : Prop :=
  ∃ network found,
    board.network? color point = some network ∧ board.networks[network]? = some found ∧
      found.signals.contains signal = true

/-- The network of an endpoint carries what the endpoints that are joined with it know. -/
theorem Loaded.transmits_iff
    (loaded : board.Loaded)
    (tidy : board.Tidy) :
    board.Transmits color point signal ↔
      ∃ other, board.Joined color point other ∧ (board.signals other).contains signal = true := by
  constructor
  · rintro ⟨network, found, atPoint, isFound, contains⟩
    have listed := tidy.lists_of_network? atPoint
    obtain ⟨other, member, known⟩ :=
      (loaded color network point listed found isFound signal).mp contains
    obtain ⟨points, isRoster, -⟩ := listed
    have sameRoster : found.color = color ∧ found.points = points := by
      simpa [roster, isFound] using isRoster
    refine ⟨other, ⟨network, atPoint, tidy.network?_eq_some_iff.mpr ⟨points, isRoster, ?_⟩⟩, known⟩
    exact sameRoster.2 ▸ member
  · rintro ⟨other, ⟨network, atPoint, atOther⟩, known⟩
    obtain ⟨points, isRoster, member⟩ := tidy.lists_of_network? atOther
    obtain ⟨found, isFound, shape⟩ := Option.map_eq_some_iff.mp isRoster
    refine ⟨network, found, atPoint, isFound, ?_⟩
    refine (loaded color network point (tidy.lists_of_network? atPoint) found isFound signal).mpr
      ⟨other, ?_, known⟩
    rw [(Prod.mk.inj shape).2]
    exact member

end Board

namespace Design

open Relation

variable {base first second design later : Design} {calls : List Nat}
  {made madeFirst madeSecond : List (List Bit)}

/-- The same entity of a draft, or the constants of literals that were made for the same bits. -/
inductive Matches (base first second : Design) : Nat → Nat → Prop where
  | drafted {entity : Nat} (inRange : entity < base.board.size) :
      Matches base first second entity entity
  | made
      {bits : List Bit}
      {id other entity counterpart : Nat}
      (absent : base.table.find? bits = none)
      (found : first.table.find? bits = some (some id))
      (isLiteral : (first.node id).kind = .literal entity)
      (foundOther : second.table.find? bits = some (some other))
      (isOtherLiteral : (second.node other).kind = .literal counterpart) :
      Matches base first second entity counterpart

/-- Designs that came from a draft have the same entities and the same networks, with the same
signals on them. -/
structure SameNetworks (base first second : Design) : Prop where
  total :
    ∀ entity, entity < first.board.size →
      ∃ other, other < second.board.size ∧ base.Matches first second entity other
  onto :
    ∀ other, other < second.board.size →
      ∃ entity, entity < first.board.size ∧ base.Matches first second entity other
  unique :
    ∀ {entity other entity' other'},
      base.Matches first second entity other → base.Matches first second entity' other' →
        (entity = entity' ↔ other = other')
  entity_eq :
    ∀ {entity other}, base.Matches first second entity other →
      first.board.entity entity = second.board.entity other
  joined_iff :
    ∀ {entity other entity' other'},
      base.Matches first second entity other → base.Matches first second entity' other' →
        ∀ color port port',
          first.board.Joined color ⟨entity, port⟩ ⟨entity', port'⟩ ↔
            second.board.Joined color ⟨other, port⟩ ⟨other', port'⟩
  transmits_iff :
    ∀ {entity other}, base.Matches first second entity other →
      ∀ color port signal,
        first.board.Transmits color ⟨entity, port⟩ signal ↔
          second.board.Transmits color ⟨other, port⟩ signal

namespace Matches

variable {entity other : Nat}

theorem symm
    (matched : base.Matches first second entity other) :
    base.Matches second first other entity := by
  cases matched with
  | drafted inRange => exact .drafted inRange
  | made absent found isLiteral foundOther isOtherLiteral =>
      exact .made absent foundOther isOtherLiteral found isLiteral

end Matches

namespace GrownFrom

/-- The literals of bit vectors that have no producer in the draft were made. -/
theorem exists_index
    (grown : base.GrownFrom design made)
    {bits : List Bit}
    {id entity : Nat}
    (absent : base.table.find? bits = none)
    (found : design.table.find? bits = some (some id))
    (isLiteral : (design.node id).kind = .literal entity) :
    ∃ index, made[index]? = some bits ∧ entity = base.board.size + index := by
  rcases grown.found found with known | ⟨index, isMade, rfl⟩
  · rw [absent] at known
    cases known
  · rw [(grown.literal isMade).kind_eq] at isLiteral
    exact ⟨index, isMade, (NodeKind.literal.inj isLiteral).symm⟩

theorem matches_lt
    (grown : base.GrownFrom first made)
    {entity other : Nat}
    (matched : base.Matches first second entity other) :
    entity < first.board.size := by
  cases matched with
  | drafted inRange => exact Nat.lt_of_lt_of_le inRange grown.follows.grows.entities_le
  | made absent found isLiteral =>
      obtain ⟨index, isMade, rfl⟩ := grown.exists_index absent found isLiteral
      exact (grown.index_lt isMade).2

/-- An entity has one counterpart, since a literal was made for one bit vector. -/
theorem matches_unique
    (grown : base.GrownFrom first made)
    {entity other other' : Nat}
    (matched : base.Matches first second entity other)
    (matched' : base.Matches first second entity other') :
    other = other' := by
  cases matched with
  | drafted inRange =>
      cases matched' with
      | drafted => rfl
      | made absent found isLiteral =>
          obtain ⟨index, -, rfl⟩ := grown.exists_index absent found isLiteral
          omega
  | made absent found isLiteral foundOther isOtherLiteral =>
      obtain ⟨index, isMade, rfl⟩ := grown.exists_index absent found isLiteral
      cases matched' with
      | drafted inRange => omega
      | made absent' found' isLiteral' foundOther' isOtherLiteral' =>
          obtain ⟨index', isMade', same⟩ := grown.exists_index absent' found' isLiteral'
          obtain rfl : index = index' := by omega
          obtain rfl := Option.some.inj (isMade.symm.trans isMade')
          obtain rfl := Table.producer_unique foundOther foundOther'
          exact NodeKind.literal.inj (isOtherLiteral.symm.trans isOtherLiteral')

theorem matches_entity_eq
    (grown : base.GrownFrom first madeFirst)
    (otherGrown : base.GrownFrom second madeSecond)
    {entity other : Nat}
    (matched : base.Matches first second entity other) :
    first.board.entity entity = second.board.entity other := by
  cases matched with
  | drafted inRange =>
      rw [grown.follows.grows.entity_eq inRange, otherGrown.follows.grows.entity_eq inRange]
  | made absent found isLiteral foundOther isOtherLiteral =>
      obtain ⟨index, isMade, rfl⟩ := grown.exists_index absent found isLiteral
      obtain ⟨other, otherMade, rfl⟩ := otherGrown.exists_index absent foundOther isOtherLiteral
      obtain ⟨count, counted, entity⟩ := (grown.literal isMade).counted
      obtain ⟨otherCount, otherCounted, otherEntity⟩ := (otherGrown.literal otherMade).counted
      rw [counted] at otherCounted
      cases otherCounted
      rw [entity, otherEntity]

/-- The endpoints of producers for one request are counterparts. -/
theorem matches_of_resolves
    (fresh : base.Fresh)
    (grown : base.GrownFrom first madeFirst)
    (otherGrown : base.GrownFrom second madeSecond)
    {request : Request}
    {producer other : Nat}
    {point otherPoint : Endpoint}
    (resolved : first.Resolves request producer point)
    (otherResolved : second.Resolves request other otherPoint) :
    base.Matches first second point.entity otherPoint.entity ∧ otherPoint.port = point.port := by
  rcases grown.outlet_cases fresh resolved with ⟨known, inRange⟩ | ⟨index, isMade, rfl, rfl, -⟩
  · have same := ((otherGrown.follows.grows.resolves fresh.formed known).unique otherResolved).2
    exact same ▸ ⟨.drafted inRange, rfl⟩
  · have literal := grown.literal isMade
    rcases otherGrown.outlet_cases fresh otherResolved with
      ⟨⟨known, -⟩, -⟩ | ⟨otherIndex, otherMade, rfl, rfl, -⟩
    · rw [literal.absent] at known
      cases known
    · have otherLiteral := otherGrown.literal otherMade
      exact ⟨.made literal.absent literal.found literal.kind_eq otherLiteral.found
        otherLiteral.kind_eq, rfl⟩

end GrownFrom

/-! ## Calls in another order succeed -/

/-- What a wired node asks for can be answered in any design that came from the same draft. -/
theorem WiredFor.answerable
    (fresh : base.Fresh)
    (reference : base.WiredFor first calls madeFirst)
    (grown : base.GrownFrom design made)
    (unfailed : ∀ id failure, (design.node id).wiring ≠ .done (some failure))
    {id : Nat}
    {request : Request}
    (isWanted : base.Wanted calls id)
    (asked : base.Requests id request) :
    design.Answerable request := by
  obtain ⟨producer, point, resolved⟩ :=
    (reference.settled id isWanted).resolved request (reference.grown.requests_iff.mpr asked)
  rcases reference.grown.outlet_cases fresh resolved with
    ⟨known, -⟩ | ⟨index, isMade, -, -, anyKind⟩
  · exact .inl ⟨producer, point, grown.follows.grows.resolves fresh.formed known,
      fun failure => unfailed _ failure⟩
  · have literal := reference.grown.literal isMade
    cases present : design.table.find? request.bits with
    | none =>
        obtain ⟨count, counted, -⟩ := literal.counted
        exact .inr ⟨present, literal.constant, count, counted⟩
    | some node =>
        cases node with
        | none => exact absurd present grown.follows.formed.known
        | some other =>
            rcases grown.found present with known | ⟨otherIndex, otherMade, rfl⟩
            · rw [literal.absent] at known
              cases known
            · have otherLiteral := grown.literal otherMade
              refine .inl ⟨_, _, ⟨otherLiteral.found, by rw [otherLiteral.kind_eq]; rfl, ?_⟩,
                fun failure => unfailed _ failure⟩
              simp [anyKind]

theorem WiredFor.unfailed_advance
    (fresh : base.Fresh)
    (reference : base.WiredFor first calls madeFirst)
    (within : base.Within design calls)
    (unfailed : ∀ id failure, (design.node id).wiring ≠ .done (some failure))
    (step : Advance design later) :
    ∀ id failure, (later.node id).wiring ≠ .done (some failure) := by
  intro id failure failed
  cases step with
  | start | finish => exact unfailed id failure (spares_mark design _ (by simp) id failure failed)
  | literal => exact unfailed id failure (spares_withLiteral design _ _ id failure failed)
  | lay => exact unfailed id failure failed
  | @giveUp other request failure busy above asked unmet ordinary =>
      -- The node is wired in the other order, so what it asks for can be answered here.
      obtain ⟨made, grown⟩ := within.grown
      have isWanted := within.wanted other (grown.old_of_requests asked) (by simp [busy])
      exact unmet (reference.answerable fresh grown unfailed isWanted (grown.requests_iff.mp asked))

theorem WiredFor.connectsAll
    (fresh : base.Fresh)
    (reference : base.WiredFor first calls madeFirst)
    (atRest : AtRest base design)
    (within : base.Within design calls)
    (unfailed : ∀ id failure, (design.node id).wiring ≠ .done (some failure))
    {others : List Nat}
    (member : ∀ id ∈ others, id ∈ calls)
    (known : ∀ id ∈ others, id < base.nodes.size) :
    design.ConnectsAll others := by
  induction others generalizing design with
  | nil =>
      trivial
  | cons id rest inductionHypothesis =>
      obtain ⟨firstMember, restMember⟩ := List.forall_mem_cons.mp member
      obtain ⟨firstKnown, restKnown⟩ := List.forall_mem_cons.mp known
      have formed := atRest.follows.formed
      have inRange := atRest.inRange firstKnown
      have isWanted := within.wanted_wiredNode firstMember firstKnown
      obtain ⟨withinLater, unfailedLater⟩ := connect_preserves
        (motive := fun later => base.Within later calls ∧
          ∀ id failure, (later.node id).wiring ≠ .done (some failure))
        formed inRange atRest.quiet ⟨within, unfailed⟩
        (fun step => ⟨within.start fresh firstMember firstKnown step,
          reference.unfailed_advance fresh within unfailed step⟩)
        (fun busy before step => ⟨before.1.advance fresh busy isWanted step,
          reference.unfailed_advance fresh before.1 before.2 step⟩)
      have ensured := connect_ensures formed inRange atRest.quiet
      have returns : ((Design.connect resolve id).run' design).isSome := by
        cases ran : Design.connect resolve id design with
        | ok point later =>
            delta EStateM.run' EStateM.run
            rw [ran]
            rfl
        | error failure later =>
            rw [ran] at ensured
            rw [after, ran] at unfailedLater
            exact absurd ensured.2.2 (unfailedLater _ _)
      exact ⟨returns, inductionHypothesis (atRest.connect firstKnown) withinLater unfailedLater
        restMember restKnown⟩

/-! ## Counterparts are wired alike -/

namespace WiredFor

/-- Each literal that was made for one order of calls was also made for the other. -/
theorem exists_matches
    (wired : base.WiredFor first calls madeFirst)
    (otherWired : base.WiredFor second calls madeSecond)
    {entity : Nat}
    (inRange : entity < first.board.size) :
    ∃ other, base.Matches first second entity other := by
  by_cases old : entity < base.board.size
  · exact ⟨entity, .drafted old⟩
  · rw [wired.grown.board_size] at inRange
    obtain ⟨index, rfl⟩ : ∃ index, entity = base.board.size + index :=
      ⟨entity - base.board.size, by omega⟩
    have literal := wired.grown.literal
      (List.getElem?_eq_getElem (by omega : index < madeFirst.length))
    obtain ⟨id, request, begun, asked, sameBits⟩ := literal.asked
    have settled := otherWired.settled id (wired.wanted id asked.inRange begun)
    obtain ⟨producer, point, found, -⟩ :=
      settled.resolved request (otherWired.grown.requests_iff.mpr asked)
    rw [sameBits] at found
    rcases otherWired.grown.found found with known | ⟨otherIndex, otherMade, rfl⟩
    · rw [literal.absent] at known
      cases known
    · exact ⟨_, .made literal.absent literal.found literal.kind_eq found
        (otherWired.grown.literal otherMade).kind_eq⟩

/-- A wire to a node has a counterpart that was laid. -/
theorem carries_matches
    (fresh : base.Fresh)
    (wired : base.WiredFor first calls madeFirst)
    (otherWired : base.WiredFor second calls madeSecond)
    {id : Nat}
    {color : Color}
    {points : List Endpoint}
    (begun : (first.node id).wiring ≠ .idle)
    (supply : first.Supply id (color, points)) :
    ∃ others, Carries second.board (color, others) ∧
      ∀ entity port other, ⟨entity, port⟩ ∈ points → base.Matches first second entity other →
        ⟨other, port⟩ ∈ others := by
  obtain ⟨planned, laid, atSource, resolved⟩ := supply
  rename_i tie request producer point
  have asked := wired.grown.requests_iff.mp ⟨_, planned, List.mem_of_getElem? atSource⟩
  have old := asked.inRange
  have settled := otherWired.settled id (wired.wanted id old begun)
  obtain ⟨otherProducer, otherPoint, otherResolved⟩ :=
    settled.resolved request (otherWired.grown.requests_iff.mpr asked)
  rw [wired.grown.follows.grows.kind_eq old] at planned
  have otherPlanned := planned
  rw [← otherWired.grown.follows.grows.kind_eq old] at otherPlanned
  have otherSupply : second.Supply id (tie.color, [otherPoint, tie.sink]) :=
    .tie otherPlanned laid atSource otherResolved
  refine ⟨_, settled.carried _ otherSupply, fun entity port other member matched => ?_⟩
  simp only [List.mem_cons, List.not_mem_nil, or_false] at member ⊢
  rcases member with rfl | isSink
  · obtain ⟨matchedPoint, samePort⟩ :=
      wired.grown.matches_of_resolves fresh otherWired.grown resolved otherResolved
    rw [wired.grown.matches_unique matched matchedPoint]
    exact .inl (congrArg (Endpoint.mk otherPoint.entity) samePort.symm)
  · have inlet : (base.node id).kind.Inlet tie.color tie.sink := ⟨_, planned, _, laid, rfl, rfl⟩
    have inDraft := fresh.grounded.bounded old _ inlet.mem_entities
    rw [← isSink] at inDraft ⊢
    rw [wired.grown.matches_unique matched (.drafted inDraft)]
    exact .inr rfl

/-- A link between endpoints joins their counterparts. -/
theorem joined_of_linked
    (fresh : base.Fresh)
    (wired : base.WiredFor first calls madeFirst)
    (otherWired : base.WiredFor second calls madeSecond)
    {color : Color}
    {start stop : Endpoint}
    (linked : base.Linked first color start stop)
    {otherStart otherStop : Nat}
    (matchedStart : base.Matches first second start.entity otherStart)
    (matchedStop : base.Matches first second stop.entity otherStop) :
    second.board.Joined color ⟨otherStart, start.port⟩ ⟨otherStop, stop.port⟩ := by
  rcases linked with joined | ⟨id, points, begun, supply, startMember, stopMember⟩
  · have startLt := fresh.anchored.bounded color start (joined.trans joined.symm)
    have stopLt := fresh.anchored.bounded color stop (joined.symm.trans joined)
    rw [← wired.grown.matches_unique (.drafted startLt) matchedStart,
      ← wired.grown.matches_unique (.drafted stopLt) matchedStop]
    exact otherWired.grown.follows.joined joined
  · obtain ⟨others, carried, counterpart⟩ := wired.carries_matches fresh otherWired begun supply
    exact carried _ (counterpart _ _ _ startMember matchedStart)
      _ (counterpart _ _ _ stopMember matchedStop)

theorem joined
    (fresh : base.Fresh)
    (wired : base.WiredFor first calls madeFirst)
    (otherWired : base.WiredFor second calls madeSecond)
    {color : Color}
    {start stop : Endpoint}
    (joined : first.board.Joined color start stop)
    {otherStart otherStop : Nat}
    (matchedStart : base.Matches first second start.entity otherStart)
    (matchedStop : base.Matches first second stop.entity otherStop) :
    second.board.Joined color ⟨otherStart, start.port⟩ ⟨otherStop, stop.port⟩ := by
  -- The induction is on the way through links; every endpoint on it has a counterpart.
  have path := wired.grown.linked joined
  clear joined
  induction path generalizing otherStop with
  | single linked =>
      exact wired.joined_of_linked fresh otherWired linked matchedStart matchedStop
  | tail _ linked inductionHypothesis =>
      obtain ⟨between, matchedBetween⟩ :=
        wired.exists_matches otherWired (wired.grown.linked_lt fresh linked).1
      exact (inductionHypothesis matchedBetween).trans
        (wired.joined_of_linked fresh otherWired linked matchedBetween matchedStop)

theorem transmits
    (fresh : base.Fresh)
    (wired : base.WiredFor first calls madeFirst)
    (otherWired : base.WiredFor second calls madeSecond)
    {entity other : Nat}
    (matched : base.Matches first second entity other)
    {color : Color}
    {port : Port}
    {signal : Signal}
    (carried : first.board.Transmits color ⟨entity, port⟩ signal) :
    second.board.Transmits color ⟨other, port⟩ signal := by
  rw [wired.grown.loaded.transmits_iff wired.grown.follows.formed.tidy] at carried
  rw [otherWired.grown.loaded.transmits_iff otherWired.grown.follows.formed.tidy]
  obtain ⟨point, isJoined, known⟩ := carried
  have inRange := wired.grown.bounded fresh color point (isJoined.symm.trans isJoined)
  obtain ⟨counterpart, matchedPoint⟩ := wired.exists_matches otherWired inRange
  refine ⟨⟨counterpart, point.port⟩,
    wired.joined fresh otherWired isJoined matched matchedPoint, ?_⟩
  rw [Board.signals, ← wired.grown.matches_entity_eq otherWired.grown matchedPoint]
  exact known

/-- Designs in which the same nodes are wired have the same networks. -/
theorem sameNetworks
    (fresh : base.Fresh)
    (wired : base.WiredFor first calls madeFirst)
    (otherWired : base.WiredFor second calls madeSecond) :
    base.SameNetworks first second where
  total entity inRange := by
    obtain ⟨other, matched⟩ := wired.exists_matches otherWired inRange
    exact ⟨other, otherWired.grown.matches_lt matched.symm, matched⟩
  onto other inRange := by
    obtain ⟨entity, matched⟩ := otherWired.exists_matches wired inRange
    exact ⟨entity, wired.grown.matches_lt matched.symm, matched.symm⟩
  unique matched matched' := by
    constructor
    · rintro rfl
      exact wired.grown.matches_unique matched matched'
    · rintro rfl
      exact otherWired.grown.matches_unique matched.symm matched'.symm
  entity_eq matched := wired.grown.matches_entity_eq otherWired.grown matched
  joined_iff matched matched' color port port' :=
    ⟨fun joined => wired.joined fresh otherWired joined matched matched',
      fun joined => otherWired.joined fresh wired joined matched.symm matched'.symm⟩
  transmits_iff matched color port signal :=
    ⟨wired.transmits fresh otherWired matched, otherWired.transmits fresh wired matched.symm⟩

end WiredFor

/-- Connecting the same nodes in another order succeeds as well, and it gives the same networks. -/
theorem connectAll_order_irrelevant
    (drafted : base.Drafted)
    {calls others : List Nat}
    (known : ∀ id ∈ calls, id < base.nodes.size)
    (same : ∀ id, id ∈ others ↔ id ∈ calls)
    (succeeds : base.ConnectsAll calls) :
    base.ConnectsAll others ∧
      base.SameNetworks (base.connectAll calls) (base.connectAll others) := by
  have fresh := drafted.fresh
  have othersKnown : ∀ id ∈ others, id < base.nodes.size :=
    fun id member => known id ((same id).mp member)
  obtain ⟨made, wired⟩ := fresh.wiredFor_connectAll (fun _ => Iff.rfl) known succeeds
  have othersSucceed := wired.connectsAll fresh fresh.atRest (fresh.within calls)
    (fun id failure => by simp [fresh.idle]) (fun id => (same id).mp) othersKnown
  obtain ⟨otherMade, otherWired⟩ := fresh.wiredFor_connectAll same othersKnown othersSucceed
  exact ⟨othersSucceed, wired.sameNetworks fresh otherWired⟩

/-- From the adder on or from the output on, the loop gets other literals first, but the same
networks. -/
theorem connectAll_order_irrelevant_loop :
    loop.connectAll [0, 1, 2] ≠ loop.connectAll [2, 1, 0] ∧
      loop.ConnectsAll [0, 1, 2] ∧ loop.ConnectsAll [2, 1, 0] ∧
      loop.SameNetworks (loop.connectAll [0, 1, 2]) (loop.connectAll [2, 1, 0]) := by
  have evaluated : loop.connectAll [0, 1, 2] ≠ loop.connectAll [2, 1, 0] ∧
      loop.ConnectsAll [0, 1, 2] ∧ ∀ id ∈ [0, 1, 2], id < loop.nodes.size := by
    decide +kernel
  obtain ⟨different, succeeds, known⟩ := evaluated
  have same (id : Nat) : id ∈ [2, 1, 0] ↔ id ∈ [0, 1, 2] := by
    simp only [List.mem_cons, List.not_mem_nil, or_false]
    omega
  exact ⟨different, succeeds, connectAll_order_irrelevant drafted_loop known same succeeds⟩

end Design

end CircuitNetwork
