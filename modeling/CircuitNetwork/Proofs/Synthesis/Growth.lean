import CircuitNetwork.Proofs.Synthesis.Calls

namespace CircuitNetwork.Design

/-!
# What calls add to a draft

Connecting nodes adds to a draft the literals that were asked for, and wires to
the inputs of nodes that were begun. Only nodes that a call leads to through the
requests of the draft are begun: a literal asks for nothing.
-/

open Relation

variable {base design later : Design} {made : List (List Bit)} {calls : List Nat}

/-- A literal was made for a bit vector that a node asked for. -/
structure Made (base design : Design) (index : Nat) (bits : List Bit) : Prop where
  absent : base.table.find? bits = none
  constant : bits.all (·.isConst)
  counted :
    ∃ count, literalCount bits = .ok count ∧
      design.board.entity (base.board.size + index) = .ofBody (.ofCount count)
  found : design.table.find? bits = some (some (base.nodes.size + index))
  kind_eq : (design.node (base.nodes.size + index)).kind = .literal (base.board.size + index)
  asked :
    ∃ id request, (design.node id).wiring ≠ .idle ∧ base.Requests id request ∧ request.bits = bits

/-- Two endpoints are joined in the draft, or by a wire to a node that was begun. -/
def Linked (base design : Design) (color : Color) (first second : Endpoint) : Prop :=
  base.board.Joined color first second ∨
    ∃ id points,
      (design.node id).wiring ≠ .idle ∧ design.Supply id (color, points) ∧
        first ∈ points ∧ second ∈ points

/-- A design that came from a draft by making literals for some bit vectors, one after another, and
by laying wires to nodes that were begun. -/
structure GrownFrom (base design : Design) (made : List (List Bit)) : Prop where
  follows : Follows base design
  nodes_size : design.nodes.size = base.nodes.size + made.length
  board_size : design.board.size = base.board.size + made.length
  literal : ∀ {index bits}, made[index]? = some bits → base.Made design index bits
  found :
    ∀ {bits id}, design.table.find? bits = some (some id) →
      base.table.find? bits = some (some id) ∨
        ∃ index, made[index]? = some bits ∧ id = base.nodes.size + index
  linked :
    ∀ {color first second}, design.board.Joined color first second →
      TransGen (base.Linked design color) first second
  loaded : design.board.Loaded

theorem entities_withLiteral
    (design : Design)
    (bits : List Bit)
    (count : Int32) :
    (design.withLiteral bits count).board.entities =
      design.board.entities.push (.ofBody (.ofCount count)) := by
  simp [withLiteral, enter, push, Board.entities_install]

theorem Fresh.grownFrom
    (fresh : base.Fresh) :
    base.GrownFrom base [] where
  follows := .refl fresh.formed
  nodes_size := rfl
  board_size := rfl
  literal isMade := by simp at isMade
  found known := .inl known
  linked joined := .single (.inl joined)
  loaded := fresh.loaded

theorem Linked.mono
    {color : Color}
    {first second : Endpoint}
    (formed : design.Formed)
    (follows : Follows design later)
    (stay : StayBegun design later)
    (linked : base.Linked design color first second) :
    base.Linked later color first second := by
  rcases linked with joined | ⟨id, points, begun, supply, ends⟩
  · exact .inl joined
  · exact .inr ⟨id, points, stay id begun, follows.grows.supply formed supply, ends⟩

namespace GrownFrom

/-- The nodes and entities of literals come after those of the draft. -/
theorem index_lt
    (grown : base.GrownFrom design made)
    {index : Nat}
    {bits : List Bit}
    (isMade : made[index]? = some bits) :
    base.nodes.size + index < design.nodes.size ∧ base.board.size + index < design.board.size := by
  have := (List.getElem?_eq_some_iff.mp isMade).1
  rw [grown.nodes_size, grown.board_size]
  omega

/-- Literals ask for nothing. -/
theorem old_of_requests
    (grown : base.GrownFrom design made)
    {id : Nat}
    {request : Request}
    (asked : design.Requests id request) :
    id < base.nodes.size := by
  by_contra outside
  have inRange := asked.inRange
  rw [grown.nodes_size] at inRange
  obtain ⟨index, rfl⟩ : ∃ index, id = base.nodes.size + index := ⟨id - base.nodes.size, by omega⟩
  have literal := grown.literal (List.getElem?_eq_getElem (by omega : index < made.length))
  obtain ⟨stage, planned, -⟩ := asked
  rw [literal.kind_eq] at planned
  cases planned

theorem requests_iff
    (grown : base.GrownFrom design made)
    {id : Nat}
    {request : Request} :
    design.Requests id request ↔ base.Requests id request :=
  ⟨fun asked => (grown.follows.grows.requests_iff (grown.old_of_requests asked)).mp asked,
    fun asked => (grown.follows.grows.requests_iff asked.inRange).mpr asked⟩

/-- The endpoint of a producer is one of the draft, or that of a literal that was made. -/
theorem outlet_cases
    (fresh : base.Fresh)
    (grown : base.GrownFrom design made)
    {request : Request}
    {producer : Nat}
    {point : Endpoint}
    (resolved : design.Resolves request producer point) :
    base.Resolves request producer point ∧ point.entity < base.board.size ∨
      ∃ index, made[index]? = some request.bits ∧ producer = base.nodes.size + index ∧
        point = ⟨base.board.size + index, .one⟩ ∧ request.fromInput = false := by
  obtain ⟨found, outlet, isInput⟩ := resolved
  rcases grown.found found with known | ⟨index, isMade, rfl⟩
  · have inRange := fresh.formed.registered known
    rw [grown.follows.grows.kind_eq inRange] at outlet isInput
    exact .inl ⟨⟨known, outlet, isInput⟩, fresh.outlet_lt inRange outlet⟩
  · have literal := grown.literal isMade
    rw [literal.kind_eq] at outlet isInput
    refine .inr ⟨index, isMade, rfl, (Option.some.inj outlet).symm, ?_⟩
    simpa [NodeKind.isInput] using isInput

/-- The ends of a wire to a node are on the board. -/
theorem supply_lt
    (fresh : base.Fresh)
    (grown : base.GrownFrom design made)
    {id : Nat}
    {wire : Color × List Endpoint}
    (supply : design.Supply id wire)
    {point : Endpoint}
    (member : point ∈ wire.2) :
    point.entity < design.board.size := by
  obtain ⟨planned, laid, asked, resolved⟩ := supply
  have old := grown.old_of_requests ⟨_, planned, List.mem_of_getElem? asked⟩
  simp only [List.mem_cons, List.not_mem_nil, or_false] at member
  rcases member with rfl | rfl
  · rcases grown.outlet_cases fresh resolved with ⟨-, inRange⟩ | ⟨index, isMade, -, rfl, -⟩
    · exact Nat.lt_of_lt_of_le inRange grown.follows.grows.entities_le
    · exact (grown.index_lt isMade).2
  · rw [grown.follows.grows.kind_eq old] at planned
    have inlet : (base.node id).kind.Inlet _ _ := ⟨_, planned, _, laid, rfl, rfl⟩
    exact Nat.lt_of_lt_of_le (fresh.grounded.bounded old _ inlet.mem_entities)
      grown.follows.grows.entities_le

theorem linked_lt
    (fresh : base.Fresh)
    (grown : base.GrownFrom design made)
    {color : Color}
    {first second : Endpoint}
    (linked : base.Linked design color first second) :
    first.entity < design.board.size ∧ second.entity < design.board.size := by
  rcases linked with joined | ⟨id, points, -, supply, firstMember, secondMember⟩
  · have entities_le := grown.follows.grows.entities_le
    have firstLt := fresh.anchored.bounded color first (joined.trans joined.symm)
    have secondLt := fresh.anchored.bounded color second (joined.symm.trans joined)
    omega
  · exact ⟨grown.supply_lt fresh supply firstMember, grown.supply_lt fresh supply secondMember⟩

theorem bounded
    (fresh : base.Fresh)
    (grown : base.GrownFrom design made) :
    design.board.Bounded := by
  intro color point joined
  obtain ⟨other, linked, -⟩ := TransGen.head'_iff.mp (grown.linked joined)
  exact (grown.linked_lt fresh linked).1

/-! ## Steps -/

theorem made_of_follows
    (grown : base.GrownFrom design made)
    (follows : Follows design later)
    (stay : StayBegun design later)
    {index : Nat}
    {bits : List Bit}
    (isMade : made[index]? = some bits) :
    base.Made later index bits := by
  have literal := grown.literal isMade
  obtain ⟨nodeLt, entityLt⟩ := grown.index_lt isMade
  obtain ⟨count, counted, entity⟩ := literal.counted
  obtain ⟨id, request, begun, asked⟩ := literal.asked
  exact
    { absent := literal.absent
      constant := literal.constant
      counted := ⟨count, counted, by rw [follows.grows.entity_eq entityLt, entity]⟩
      found := follows.grows.find?_eq literal.found
      kind_eq := by rw [follows.grows.kind_eq nodeLt, literal.kind_eq]
      asked := ⟨id, request, stay id begun, asked⟩ }

theorem linked_of_follows
    (grown : base.GrownFrom design made)
    (follows : Follows design later)
    (stay : StayBegun design later)
    {color : Color}
    {first second : Endpoint}
    (joined : design.board.Joined color first second) :
    TransGen (base.Linked later color) first second :=
  TransGen.mono (fun _ _ linked => linked.mono grown.follows.formed follows stay) _ _
    (grown.linked joined)

/-- A step that makes no literal. -/
theorem unchanged
    (grown : base.GrownFrom design made)
    (follows : Follows design later)
    (stay : StayBegun design later)
    (sameNodes : later.nodes.size = design.nodes.size)
    (sameBoard : later.board.size = design.board.size)
    (sameTable : later.table = design.table)
    (linked :
      ∀ {color first second}, later.board.Joined color first second →
        TransGen (base.Linked later color) first second)
    (loaded : later.board.Loaded) :
    base.GrownFrom later made where
  follows := grown.follows.trans follows
  nodes_size := by rw [sameNodes, grown.nodes_size]
  board_size := by rw [sameBoard, grown.board_size]
  literal := grown.made_of_follows follows stay
  found known := grown.found (sameTable ▸ known)
  linked := linked
  loaded := loaded

/-- Recording the state of a wiring adds nothing. -/
theorem mark
    (grown : base.GrownFrom design made)
    {id : Nat}
    {wiring : Wiring}
    (follows : Follows design (design.mark id wiring))
    (stay : StayBegun design (design.mark id wiring)) :
    base.GrownFrom (design.mark id wiring) made :=
  grown.unchanged follows stay (size_mark design id wiring) rfl rfl
    (grown.linked_of_follows follows stay) grown.loaded

/-- A wire to a node that was begun links its ends. -/
theorem lay
    (grown : base.GrownFrom design made)
    {id : Nat}
    {wire : Color × List Endpoint}
    (busy : (design.node id).wiring = .busy)
    (supply : design.Supply id wire) :
    base.GrownFrom { design with board := design.board.wire wire.1 wire.2 } made := by
  have follows := Follows.wire grown.follows.formed wire.1 wire.2
  have stay : StayBegun design { design with board := design.board.wire wire.1 wire.2 } :=
    fun _ begun => begun
  refine grown.unchanged follows stay rfl (by simp [Board.size]) rfl ?_
    (grown.loaded.wire grown.follows.formed.tidy _ _)
  intro color first second joined
  rcases (grown.follows.formed.tidy.joined_wire_iff _ _ _ _ _).mp joined with
    before | ⟨rfl, ⟨start, startMember, atStart⟩, ⟨stop, stopMember, atStop⟩⟩
  · exact grown.linked_of_follows follows stay before
  · have begun : (design.node id).wiring ≠ .idle := by simp [busy]
    have across : TransGen (base.Linked { design with board := design.board.wire wire.1 wire.2 }
        wire.1) start stop :=
      .single (.inr ⟨id, wire.2, begun, follows.grows.supply grown.follows.formed supply,
        startMember, stopMember⟩)
    have fromFirst : TransGen (base.Linked { design with board := design.board.wire wire.1 wire.2 }
        wire.1) first stop := by
      rcases atStart with rfl | joinedStart
      · exact across
      · exact (grown.linked_of_follows follows stay joinedStart).trans across
    rcases atStop with rfl | joinedStop
    · exact fromFirst
    · exact fromFirst.trans (grown.linked_of_follows follows stay joinedStop.symm)

/-- A literal is made for the next bit vector. -/
theorem withLiteral
    (fresh : base.Fresh)
    (grown : base.GrownFrom design made)
    {id : Nat}
    {request : Request}
    {count : Int32}
    (busy : (design.node id).wiring = .busy)
    (asked : design.Requests id request)
    (missing : design.table.find? request.bits = none)
    (constant : request.bits.all (·.isConst))
    (counted : literalCount request.bits = .ok count) :
    base.GrownFrom (design.withLiteral request.bits count) (made ++ [request.bits]) := by
  have follows := Follows.withLiteral grown.follows.formed missing count
  have stay := stayBegun_withLiteral design request.bits count
  have new : base.Made (design.withLiteral request.bits count) made.length request.bits :=
    { absent := by
        cases known : base.table.find? request.bits with
        | none => rfl
        | some node =>
            rw [grown.follows.grows.find?_eq known] at missing
            cases missing
      constant := constant
      counted := by
        refine ⟨count, counted, ?_⟩
        rw [← grown.board_size, Board.entity, entities_withLiteral]
        simp [Board.size]
      found := by
        rw [← grown.nodes_size, Design.withLiteral, enter, Table.find?_add, if_pos rfl]
      kind_eq := by
        rw [← grown.nodes_size, ← grown.board_size, node_withLiteral, if_pos rfl]
      asked := ⟨id, request, stay id (by simp [busy]), grown.requests_iff.mp asked, rfl⟩ }
  refine ⟨grown.follows.trans follows, ?_, ?_, ?_, ?_, ?_, ?_⟩
  · rw [List.length_append, ← Nat.add_assoc, ← grown.nodes_size]
    exact size_push design ⟨[.ofCount count], []⟩ (.literal design.board.size)
  · rw [List.length_append, ← Nat.add_assoc, ← grown.board_size, Board.size, entities_withLiteral,
      Array.size_push]
    rfl
  · intro index bits isMade
    rw [List.getElem?_append] at isMade
    split at isMade
    · exact grown.made_of_follows follows stay isMade
    · obtain ⟨atStart, rfl⟩ := List.getElem?_eq_some_iff.mp isMade
      rw [List.length_singleton] at atStart
      obtain rfl : index = made.length := by omega
      simpa using new
  · intro bits other known
    rw [Design.withLiteral, enter, Table.find?_add] at known
    split at known
    · rename_i isNew
      subst isNew
      obtain rfl := Option.some.inj (Option.some.inj known)
      exact .inr ⟨made.length, by simp, grown.nodes_size⟩
    · rcases grown.found known with before | ⟨index, isMade, same⟩
      · exact .inl before
      · have inList := (List.getElem?_eq_some_iff.mp isMade).1
        exact .inr ⟨index, by rw [List.getElem?_append_left inList, isMade], same⟩
  · exact grown.linked_of_follows follows stay
  · exact grown.loaded.install grown.follows.formed.tidy (grown.bounded fresh) _

/-- Every step of a wiring adds at most one literal and wires to nodes that were begun. -/
theorem advance
    (fresh : base.Fresh)
    (grown : base.GrownFrom design made)
    (step : Advance design later) :
    ∃ made, base.GrownFrom later made := by
  have follows := step.follows grown.follows.formed
  have stay := step.stayBegun
  cases step with
  | start | finish | giveUp => exact ⟨made, grown.mark follows stay⟩
  | lay busy supply => exact ⟨made, grown.lay busy supply⟩
  | literal busy asked missing constant counted =>
      exact ⟨_, grown.withLiteral fresh busy asked missing constant counted⟩

/-- Between nodes of a draft, a literal stands on no way. -/
theorem leads_of_leads
    (fresh : base.Fresh)
    (grown : base.GrownFrom design made)
    {top id : Nat}
    (leads : ReflTransGen design.Refers top id)
    (old : id < base.nodes.size) :
    ReflTransGen base.Refers top id := by
  induction leads with
  | refl =>
      exact .refl
  | @tail middle last _ refers inductionHypothesis =>
      -- The node before the last one asks for something, so it is one of the draft as well.
      obtain ⟨request, producer, asked, found, rfl⟩ := refers
      refine (inductionHypothesis (grown.old_of_requests asked)).tail ?_
      refine ⟨request, producer, grown.requests_iff.mp asked, ?_⟩
      rcases grown.found found with known | ⟨index, isMade, rfl⟩
      · exact ⟨known, grown.follows.grows.wiredNode_eq (fresh.formed.registered known)⟩
      · have isSelf : design.wiredNode (base.nodes.size + index) = base.nodes.size + index := by
          rw [wiredNode, (grown.literal isMade).kind_eq]
        omega

end GrownFrom

/-! ## What is begun -/

/-- A node that one of the calls leads to. -/
def Wanted (base : Design) (calls : List Nat) (id : Nat) : Prop :=
  ∃ call ∈ calls, ReflTransGen base.Refers (base.wiredNode call) id

/-- A node is begun only while every node that is being wired leads to it. -/
theorem Advance.begun_cases
    (step : Advance design later)
    {id : Nat}
    (begun : (later.node id).wiring ≠ .idle) :
    (design.node id).wiring ≠ .idle ∨
      ∀ other, (design.node other).wiring = .busy → TransGen design.Refers other id := by
  have marked {other : Nat} {wiring : Wiring} (different : id ≠ other)
      (begun : ((design.mark other wiring).node id).wiring ≠ .idle) :
      (design.node id).wiring ≠ .idle := by
    rwa [node_mark_of_ne design different] at begun
  cases step with
  | @start other inRange idle above =>
      by_cases same : id = other
      · exact .inr (same ▸ above)
      · exact .inl (marked same begun)
  | literal =>
      rw [node_withLiteral] at begun
      split at begun
      · exact absurd rfl begun
      · exact .inl begun
  | lay => exact .inl begun
  | @finish other busy | @giveUp other _ _ busy =>
      by_cases same : id = other
      · exact .inl (by simp [same, busy])
      · exact .inl (marked same begun)

/-- A design that was grown from a draft by wiring only nodes that the calls lead to. -/
structure Within (base design : Design) (calls : List Nat) : Prop where
  grown : ∃ made, base.GrownFrom design made
  wanted :
    ∀ id, id < base.nodes.size → (design.node id).wiring ≠ .idle → base.Wanted calls id

namespace Within

theorem advance
    (fresh : base.Fresh)
    (within : base.Within design calls)
    {top : Nat}
    (busy : (design.node top).wiring = .busy)
    (wantedTop : base.Wanted calls top)
    (step : Advance design later) :
    base.Within later calls := by
  obtain ⟨made, grown⟩ := within.grown
  refine ⟨grown.advance fresh step, fun id old begun => ?_⟩
  rcases step.begun_cases begun with before | above
  · exact within.wanted id old before
  · obtain ⟨call, member, leadsTop⟩ := wantedTop
    exact ⟨call, member, leadsTop.trans
      (grown.leads_of_leads fresh (above top busy).to_reflTransGen old)⟩

theorem wanted_wiredNode
    (within : base.Within design calls)
    {id : Nat}
    (member : id ∈ calls)
    (known : id < base.nodes.size) :
    base.Wanted calls (design.wiredNode id) := by
  obtain ⟨made, grown⟩ := within.grown
  rw [grown.follows.grows.wiredNode_eq known]
  exact ⟨id, member, .refl⟩

/-- A call begins with the node itself. -/
theorem start
    (fresh : base.Fresh)
    (within : base.Within design calls)
    {id : Nat}
    (member : id ∈ calls)
    (known : id < base.nodes.size)
    (step : Advance design (design.mark (design.wiredNode id) .busy)) :
    base.Within (design.mark (design.wiredNode id) .busy) calls := by
  obtain ⟨made, grown⟩ := within.grown
  refine ⟨grown.advance fresh step, fun other old begun => ?_⟩
  by_cases same : other = design.wiredNode id
  · exact same ▸ within.wanted_wiredNode member known
  · rw [node_mark_of_ne design same] at begun
    exact within.wanted other old begun

theorem connect
    (fresh : base.Fresh)
    (atRest : AtRest base design)
    (within : base.Within design calls)
    {id : Nat}
    (member : id ∈ calls)
    (known : id < base.nodes.size) :
    base.Within (after (connect resolve id) design) calls :=
  connect_preserves (motive := fun later => base.Within later calls) atRest.follows.formed
    (atRest.inRange known) atRest.quiet within (within.start fresh member known)
    fun busy before step => before.advance fresh busy (within.wanted_wiredNode member known) step

theorem connectAll
    (fresh : base.Fresh)
    (atRest : AtRest base design)
    (within : base.Within design calls)
    {others : List Nat}
    (member : ∀ id ∈ others, id ∈ calls)
    (known : ∀ id ∈ others, id < base.nodes.size) :
    base.Within (design.connectAll others) calls := by
  induction others generalizing design with
  | nil =>
      exact within
  | cons id rest inductionHypothesis =>
      obtain ⟨firstMember, restMember⟩ := List.forall_mem_cons.mp member
      obtain ⟨firstKnown, restKnown⟩ := List.forall_mem_cons.mp known
      exact inductionHypothesis (atRest.connect firstKnown)
        (within.connect fresh atRest firstMember firstKnown) restMember restKnown

end Within

theorem Fresh.within
    (fresh : base.Fresh)
    (calls : List Nat) :
    base.Within base calls :=
  ⟨⟨[], fresh.grownFrom⟩, fun id _ begun => absurd (fresh.idle id) begun⟩

/-! ## After calls that succeed -/

/-- The nodes that were connected are done. -/
theorem AtRest.done_connectAll
    (atRest : AtRest base design)
    {calls : List Nat}
    (known : ∀ id ∈ calls, id < base.nodes.size)
    (succeeds : design.ConnectsAll calls) :
    ∀ id ∈ calls, ((design.connectAll calls).node (base.wiredNode id)).wiring = .done none := by
  induction calls generalizing design with
  | nil =>
      simp
  | cons id rest inductionHypothesis =>
      obtain ⟨firstKnown, restKnown⟩ := List.forall_mem_cons.mp known
      obtain ⟨returns, restSucceeds⟩ := succeeds
      obtain ⟨point, returned⟩ := Option.isSome_iff_exists.mp returns
      have inRange := atRest.inRange firstKnown
      have ensured := connect_ensures atRest.follows.formed inRange atRest.quiet
      rw [eq_ok_after returned] at ensured
      obtain ⟨passes, done, -⟩ := ensured
      have atRestLater := atRest.passes passes
      rw [atRestLater.follows.grows.wiredNode_eq firstKnown] at done
      refine List.forall_mem_cons.mpr ⟨?_, inductionHypothesis atRestLater restKnown restSucceeds⟩
      exact (atRestLater.rebase.connectAll fun other member =>
        atRestLater.inRange (restKnown other member)).follows.done_eq done

/-- All nodes that the calls lead to are wired, and no others were begun. -/
structure WiredFor (base design : Design) (calls : List Nat) (made : List (List Bit)) : Prop where
  grown : base.GrownFrom design made
  wanted :
    ∀ id, id < base.nodes.size → (design.node id).wiring ≠ .idle → base.Wanted calls id
  settled : ∀ id, base.Wanted calls id → design.Settled id

theorem Fresh.wiredFor_connectAll
    (fresh : base.Fresh)
    {others : List Nat}
    (same : ∀ id, id ∈ others ↔ id ∈ calls)
    (known : ∀ id ∈ others, id < base.nodes.size)
    (succeeds : base.ConnectsAll others) :
    ∃ made, base.WiredFor (base.connectAll others) calls made := by
  have within := (fresh.within calls).connectAll fresh fresh.atRest (fun id => (same id).mp) known
  have atRest := fresh.atRest.connectAll known
  obtain ⟨made, grown⟩ := within.grown
  refine ⟨made, grown, within.wanted, fun id isWanted => ?_⟩
  obtain ⟨call, member, leads⟩ := isWanted
  have done := fresh.atRest.done_connectAll known succeeds call ((same call).mpr member)
  have leadsNow := ReflTransGen.mono
    (fun _ _ refers => atRest.follows.grows.refers fresh.formed refers) _ _ leads
  exact atRest.vetted.settled id (atRest.vetted.done_of_leads atRest.quiet
    (unfailed_connectAll (fun id failure => by simp [fresh.idle]) succeeds) done leadsNow)

end CircuitNetwork.Design
