import CircuitNetwork.Arena
import CircuitNetwork.Proofs.Computation
import CircuitNetwork.Proofs.Wire.Anchors
import Mathlib.Data.List.Nodup

namespace CircuitNetwork

/-!
# What records list

A combinator has a record exactly if no end of it is bare. On a tidy board its
record lists, for each of its ports and each color, the other endpoints of the
network of the port once each.
-/

/-- The endpoints that are listed under a color. -/
def Links.of (links : Links) : Color → List Partner
  | .red => links.red
  | .green => links.green

namespace Board

/-- An endpoint as records list it. -/
def partnerAt (board : Board) (point : Endpoint) : Partner :=
  { entity := (board.entity point.entity).number, port := point.port.number }

/-- No wire is attached to an endpoint. -/
def Bare (board : Board) (point : Endpoint) : Prop :=
  ∀ color, board.network? color point = none

/-- The input or the output of an entity is bare. -/
def Loose (board : Board) (id : Nat) : Prop :=
  board.Bare (board.input id) ∨ board.Bare (board.output id)

/-- The record of a combinator that is wired. -/
def sheet (board : Board) (id : Nat) : Record :=
  let entity := board.entity id
  { number := entity.number
    position := entity.position
    direction := entity.direction
    body := entity.body
    links := entity.body.ports.map fun port => (port, board.links ⟨id, port⟩) }

theorem links_of
    (board : Board)
    (point : Endpoint)
    (color : Color) :
    (board.links point).of color = (board.partners color point).map board.partnerAt := by
  cases color <;> rfl

theorem isConnected_eq_false_iff
    {board : Board}
    {point : Endpoint} :
    board.isConnected point = false ↔ board.Bare point := by
  constructor
  · intro unconnected color
    cases color <;> simp_all [isConnected, Color.all]
  · intro bare
    simp [isConnected, Color.all, bare .red, bare .green]

/-- An entity is loose exactly if one of its ports is bare. -/
theorem loose_iff
    {board : Board}
    {id : Nat} :
    board.Loose id ↔ ∃ port ∈ (board.entity id).body.ports, board.Bare ⟨id, port⟩ := by
  simp only [Loose, input, output, Body.ports]
  cases (board.entity id).body.outputPort <;> simp

theorem map_requiredPorts
    {body : Body}
    (combinator : body.isCombinator = true) :
    (requiredPorts body).map (·.1) = body.ports := by
  cases body with
  | fixture name => cases combinator
  | _ => rfl

/-- A combinator that is loose has no record, and any other has one. -/
theorem record_cases
    {board : Board}
    {id : Nat}
    (combinator : (board.entity id).body.isCombinator = true) :
    (board.Loose id ∧ ∃ complaint, board.record id =
        .error (.ofFault ⟨.unconnected, (board.entity id).label, complaint⟩)) ∨
      (¬board.Loose id ∧ board.record id = .ok (some (board.sheet id))) := by
  have ports := map_requiredPorts combinator
  cases found : (requiredPorts (board.entity id).body).find? fun required =>
      !board.isConnected ⟨id, required.1⟩ with
  | some required =>
      have listed := List.mem_of_find?_eq_some found
      have unconnected := List.find?_some found
      simp only [Bool.not_eq_true', isConnected_eq_false_iff] at unconnected
      refine .inl ⟨loose_iff.mpr ⟨required.1, ?_, unconnected⟩, required.2, ?_⟩
      · rw [← ports]
        exact List.mem_map_of_mem listed
      · simp only [record, found]
  | none =>
      refine .inr ⟨?_, ?_⟩
      · intro loose
        obtain ⟨port, isPort, bare⟩ := loose_iff.mp loose
        rw [← ports] at isPort
        obtain ⟨required, listed, rfl⟩ := List.mem_map.mp isPort
        have connected := List.find?_eq_none.mp found required listed
        simp [isConnected_eq_false_iff.mpr bare] at connected
      · simp [record, found, combinator, sheet, ← ports]

/-! ## Partners on tidy boards -/

theorem Tidy.mem_points_iff
    {board : Board}
    (tidy : board.Tidy)
    {color : Color}
    {point : Endpoint}
    {network : Nat}
    (found : board.network? color point = some network)
    (other : Endpoint) :
    other ∈ board.points network ↔ board.network? color other = some network := by
  obtain ⟨points, atNetwork, -⟩ := tidy.lists_of_network? found
  obtain ⟨stored, isStored, shape⟩ := Option.map_eq_some_iff.mp atNetwork
  obtain ⟨rfl, rfl⟩ := Prod.mk.inj shape
  have listed : board.points network = stored.points := by simp [Board.points, isStored]
  rw [listed, tidy.network?_eq_some_iff]
  constructor
  · exact fun member => ⟨stored.points, atNetwork, member⟩
  · rintro ⟨others, atSame, member⟩
    rw [atNetwork] at atSame
    obtain ⟨-, rfl⟩ := Prod.mk.inj (Option.some.inj atSame)
    exact member

/-- The partners of an endpoint are the other endpoints of its network. -/
theorem Tidy.mem_partners_iff
    {board : Board}
    (tidy : board.Tidy)
    {color : Color}
    {point other : Endpoint} :
    other ∈ board.partners color point ↔
      other ≠ point ∧ board.Joined color point other := by
  unfold partners Joined
  cases found : board.network? color point with
  | none =>
      simp
  | some network =>
      simp only [List.mem_filter, tidy.mem_points_iff found, decide_eq_true_eq, Option.some.injEq,
        exists_eq_left', and_comm]

theorem Tidy.nodup_partners
    {board : Board}
    (tidy : board.Tidy)
    (color : Color)
    (point : Endpoint) :
    (board.partners color point).Nodup := by
  unfold partners
  split
  · rename_i network found
    obtain ⟨points, atNetwork, -⟩ := tidy.lists_of_network? found
    obtain ⟨stored, isStored, shape⟩ := Option.map_eq_some_iff.mp atNetwork
    obtain ⟨rfl, rfl⟩ := Prod.mk.inj shape
    have listed : board.points network = stored.points := by simp [Board.points, isStored]
    rw [listed]
    exact (tidy.nodup atNetwork).filter _
  · exact List.nodup_nil

end Board

/-- The records of combinators are those of all of them, or the failure of the first that is loose. -/
theorem Arena.records_cases
    (arena : Arena)
    {board : Board}
    (combinators : ∀ id ∈ arena.members, (board.entity id).body.isCombinator = true) :
    (∃ before id after complaint,
        arena.members = before ++ id :: after ∧ (∀ other ∈ before, ¬board.Loose other) ∧
          board.Loose id ∧
          arena.records board =
            .error (.ofFault ⟨.unconnected, (board.entity id).label, complaint⟩)) ∨
      ((∀ id ∈ arena.members, ¬board.Loose id) ∧
        arena.records board = .ok (arena.members.map fun id => some (board.sheet id))) := by
  obtain ⟨members⟩ := arena
  simp only [Arena.records] at combinators ⊢
  induction members with
  | nil =>
      exact .inr ⟨by simp, rfl⟩
  | cons id rest inductionHypothesis =>
      obtain ⟨isCombinator, restCombinators⟩ := List.forall_mem_cons.mp combinators
      rw [List.mapM_cons]
      rcases Board.record_cases isCombinator with ⟨loose, complaint, refused⟩ | ⟨wired, recorded⟩
      · exact .inl ⟨[], id, rest, complaint, rfl, by simp, loose, by rw [refused]; rfl⟩
      rw [recorded]
      rcases inductionHypothesis restCombinators with
        ⟨before, first, after, complaint, rfl, wiredBefore, loose, refused⟩ | ⟨restWired, listed⟩
      · refine .inl ⟨id :: before, first, after, complaint, rfl, ?_, loose, ?_⟩
        · exact List.forall_mem_cons.mpr ⟨wired, wiredBefore⟩
        · simp only [refused]
          rfl
      · refine .inr ⟨List.forall_mem_cons.mpr ⟨wired, restWired⟩, ?_⟩
        simp only [listed]
        rfl

/-! ## The wire graph of records -/

/-- Two endpoints as records list them are the same, or one is listed as a partner of the other. -/
def Record.Related
    (records : List Record)
    (color : Color)
    (first second : Partner) :
    Prop :=
  first = second ∨
    ∃ record ∈ records, ∃ port links,
      (port, links) ∈ record.links ∧ first = ⟨record.number, port.number⟩ ∧ second ∈ links.of color

namespace Board

/-- Entities are numbered from one on in the order of a list. -/
def Numbers (board : Board) (members : List Nat) : Prop :=
  ∀ index id, members[index]? = some id → (board.entity id).number = index + 1

/-- A port of one of the listed entities. -/
structure Ends (board : Board) (members : List Nat) (point : Endpoint) : Prop where
  member : point.entity ∈ members
  port : point.port ∈ (board.entity point.entity).body.ports

/-- The networks at the listed entities join only ports of listed entities. -/
def Encloses (board : Board) (members : List Nat) : Prop :=
  ∀ color point other, point.entity ∈ members → board.Joined color point other →
    board.Ends members other

/-- Records say which networks there are between the ports of the listed entities. -/
structure Describes (board : Board) (members : List Nat) (records : List Record) : Prop where
  numbers : records.map (·.number) = List.range' 1 members.length
  bodies : records.map (·.body) = members.map fun id => (board.entity id).body
  ports : ∀ record ∈ records, record.links.map (·.1) = record.body.ports
  partners :
    ∀ (index id : Nat) (record : Record),
      members[index]? = some id → records[index]? = some record →
        ∀ port links, (port, links) ∈ record.links → ∀ color,
          (links.of color).Nodup ∧
            ∀ partner, partner ∈ links.of color ↔
              ∃ other, other ≠ ⟨id, port⟩ ∧ board.Joined color ⟨id, port⟩ other ∧
                partner = board.partnerAt other
  equivalence : ∀ color, Equivalence (Record.Related records color)
  partition :
    ∀ color first second, board.Ends members first → board.Ends members second →
      (Record.Related records color (board.partnerAt first) (board.partnerAt second) ↔
        first = second ∨ board.Joined color first second)

variable {board : Board} {members : List Nat}

theorem Numbers.eq_of_number_eq
    (numbers : board.Numbers members)
    {first second : Nat}
    (isMember : first ∈ members)
    (secondMember : second ∈ members)
    (same : (board.entity first).number = (board.entity second).number) :
    first = second := by
  obtain ⟨index, atIndex⟩ := List.getElem?_of_mem isMember
  obtain ⟨other, atOther⟩ := List.getElem?_of_mem secondMember
  rw [numbers index first atIndex, numbers other second atOther, Nat.add_right_cancel_iff] at same
  subst same
  exact Option.some.inj (atIndex.symm.trans atOther)

/-- Records tell the ports of numbered entities apart. -/
theorem Numbers.eq_of_partnerAt_eq
    (numbers : board.Numbers members)
    {first second : Endpoint}
    (isMember : first.entity ∈ members)
    (secondMember : second.entity ∈ members)
    (same : board.partnerAt first = board.partnerAt second) :
    first = second := by
  obtain ⟨id, port⟩ := first
  obtain ⟨other, otherPort⟩ := second
  obtain ⟨sameNumber, samePort⟩ := Partner.mk.inj same
  obtain rfl := numbers.eq_of_number_eq isMember secondMember sameNumber
  cases port <;> cases otherPort <;> first | rfl | cases samePort

/-- What the records of listed entities relate. -/
theorem related_sheets_iff
    (tidy : board.Tidy)
    {color : Color}
    {first second : Partner} :
    Record.Related (members.map board.sheet) color first second ↔
      first = second ∨
        ∃ point other,
          board.Ends members point ∧ other ≠ point ∧ board.Joined color point other ∧
            first = board.partnerAt point ∧ second = board.partnerAt other := by
  refine or_congr_right ⟨?_, ?_⟩
  · rintro ⟨record, listed, port, links, isLinks, rfl, isPartner⟩
    obtain ⟨id, isMember, rfl⟩ := List.mem_map.mp listed
    obtain ⟨samePort, isPort, shape⟩ := List.mem_map.mp isLinks
    obtain ⟨rfl, rfl⟩ := Prod.mk.inj shape
    rw [links_of] at isPartner
    obtain ⟨other, isOther, rfl⟩ := List.mem_map.mp isPartner
    obtain ⟨different, joined⟩ := tidy.mem_partners_iff.mp isOther
    exact ⟨⟨id, samePort⟩, other, ⟨isMember, isPort⟩, different, joined, rfl, rfl⟩
  · rintro ⟨⟨id, port⟩, other, ends, different, joined, rfl, rfl⟩
    refine ⟨board.sheet id, List.mem_map_of_mem ends.member, port, board.links ⟨id, port⟩, ?_,
      rfl, ?_⟩
    · exact List.mem_map_of_mem ends.port
    · rw [links_of]
      exact List.mem_map_of_mem (tidy.mem_partners_iff.mpr ⟨different, joined⟩)

/-- For ports of the listed entities, to be related by the records is to share a network. -/
theorem related_partnerAt_iff
    (tidy : board.Tidy)
    (numbers : board.Numbers members)
    (encloses : board.Encloses members)
    {color : Color}
    {first second : Endpoint}
    (isEnd : board.Ends members first)
    (secondIsEnd : board.Ends members second) :
    Record.Related (members.map board.sheet) color (board.partnerAt first)
        (board.partnerAt second) ↔
      first = second ∨ board.Joined color first second := by
  rw [related_sheets_iff tidy]
  constructor
  · rintro (same | ⟨point, other, ends, -, joined, isFirst, isSecond⟩)
    · exact .inl (numbers.eq_of_partnerAt_eq isEnd.member secondIsEnd.member same)
    · have otherMember := (encloses color point other ends.member joined).member
      rw [numbers.eq_of_partnerAt_eq isEnd.member ends.member isFirst,
        numbers.eq_of_partnerAt_eq secondIsEnd.member otherMember isSecond]
      exact .inr joined
  · rintro (rfl | joined)
    · exact .inl rfl
    · by_cases same : second = first
      · exact .inl (by rw [same])
      · exact .inr ⟨first, second, isEnd, same, joined, rfl, rfl⟩

/-- The records of entities that share networks only with each other relate endpoints in classes. -/
theorem equivalence_related
    (tidy : board.Tidy)
    (numbers : board.Numbers members)
    (encloses : board.Encloses members)
    (color : Color) :
    Equivalence (Record.Related (members.map board.sheet) color) where
  refl _ := .inl rfl
  symm {first second} related := by
    rw [related_sheets_iff tidy] at related ⊢
    rcases related with rfl | ⟨point, other, ends, different, joined, rfl, rfl⟩
    · exact .inl rfl
    · have otherEnds := encloses color point other ends.member joined
      exact .inr ⟨other, point, otherEnds, different.symm, joined.symm, rfl, rfl⟩
  trans {first second third} related onward := by
    rcases (related_sheets_iff tidy).mp related with
      rfl | ⟨point, other, ends, -, joined, rfl, rfl⟩
    · exact onward
    have otherEnds := encloses color point other ends.member joined
    rcases (related_sheets_iff tidy).mp onward with
      rfl | ⟨middle, last, middleEnds, -, onwardJoined, isMiddle, rfl⟩
    · exact related
    obtain rfl := numbers.eq_of_partnerAt_eq otherEnds.member middleEnds.member isMiddle
    have lastEnds := encloses color other last middleEnds.member onwardJoined
    rw [related_partnerAt_iff tidy numbers encloses ends lastEnds]
    exact .inr (joined.trans onwardJoined)

/-- The records of numbered entities that share networks only with each other describe these
networks. -/
theorem describes_sheets
    (tidy : board.Tidy)
    (numbers : board.Numbers members)
    (encloses : board.Encloses members) :
    board.Describes members (members.map board.sheet) where
  numbers := by
    apply List.ext_getElem
    · simp
    · intro index inRecords inNumbers
      simp only [List.length_map] at inRecords
      have number := numbers index _ (List.getElem?_eq_getElem inRecords)
      simpa [sheet, Nat.add_comm] using number
  bodies := by simp [sheet, Function.comp_def]
  ports record listed := by
    obtain ⟨id, -, rfl⟩ := List.mem_map.mp listed
    simp [sheet, Function.comp_def]
  partners index id record isMember isRecord port links isLinks color := by
    rw [List.getElem?_map, isMember] at isRecord
    obtain rfl := Option.some.inj isRecord
    obtain ⟨samePort, -, shape⟩ := List.mem_map.mp isLinks
    obtain ⟨rfl, rfl⟩ := Prod.mk.inj shape
    have inside : ∀ other ∈ board.partners color ⟨id, samePort⟩, other.entity ∈ members :=
      fun other listed => (encloses color _ other (List.mem_of_getElem? isMember)
        (tidy.mem_partners_iff.mp listed).2).member
    rw [links_of]
    constructor
    · refine (tidy.nodup_partners color _).map_on fun first isFirst second isSecond same => ?_
      exact numbers.eq_of_partnerAt_eq (inside first isFirst) (inside second isSecond) same
    · intro partner
      simp only [List.mem_map, tidy.mem_partners_iff, and_assoc, eq_comm]
  equivalence := equivalence_related tidy numbers encloses
  partition _ _ _ isEnd secondIsEnd := related_partnerAt_iff tidy numbers encloses isEnd secondIsEnd

end Board

end CircuitNetwork
