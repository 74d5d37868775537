import CircuitNetwork.Proofs.Synthesis.Drafts
import CircuitNetwork.Proofs.Synthesis.Journal

namespace CircuitNetwork

/-!
# Sequences of calls

Nodes of a draft are connected one after another. A node that is asked for while
it is being wired hands out its endpoint at once, so a wiring may be finished
before the nodes that it asks for are. Still, as long as every call succeeds, all
nodes that a connected node leads to are wired completely.

What a node takes in, and where, is said for each kind of node on its own and not
read off the plan that its wiring follows.
-/

/-! ## Inputs and values of nodes -/

namespace NodeKind

/-- Bits arrive at an endpoint of a node on a wire of a color. -/
inductive Takes : NodeKind → Color → List Bit → Endpoint → Prop where
  | output {bits : List Bit} {terminal : Nat} :
      Takes (output bits terminal) .red bits ⟨terminal, .one⟩
  | first {label : String} {a b : List Bit} {transformer : Nat} :
      Takes (gate label a b transformer) .red a ⟨transformer + 1, .one⟩
  | second {label : String} {a b : List Bit} {transformer : Nat} :
      Takes (gate label a b transformer) .red b ⟨transformer, .one⟩
  | select {a b select : List Bit} {transformer : Nat} :
      Takes (mux a b select transformer) .red select ⟨transformer, .one⟩
  | unselected {a b select : List Bit} {transformer : Nat} :
      Takes (mux a b select transformer) .red a ⟨transformer + 1, .one⟩
  | selected {a b select : List Bit} {transformer : Nat} :
      Takes (mux a b select transformer) .red b ⟨transformer + 2, .one⟩
  | writeClock {bank : Bank} :
      Takes (memory bank) .red bank.writeClock ⟨bank.first, .one⟩
  | writeEnable {bank : Bank} :
      Takes (memory bank) .green bank.writeEnable ⟨bank.first, .one⟩
  | writeAddress {bank : Bank} {row : Nat} (inRange : row < bank.geometry.size) :
      Takes (memory bank) .red bank.writeAddress ⟨bank.first + Bank.selectAt row, .one⟩
  | writeData {bank : Bank} {row : Nat} (inRange : row < bank.geometry.size) :
      Takes (memory bank) .red bank.writeData ⟨bank.first + Bank.latchAt row, .one⟩
  | readAddress {bank : Bank} {port : Nat} (inRange : port < bank.geometry.readPorts) :
      Takes (memory bank) .red (bank.portAddress port)
        ⟨bank.first + Bank.addressAt bank.geometry port, .one⟩

/-- The value of a node appears at an endpoint. A memory gives its values through read ports. -/
inductive Gives : NodeKind → Endpoint → Prop where
  | input {bits : List Bit} {constant : Nat} : Gives (input bits constant) ⟨constant, .one⟩
  | literal {constant : Nat} : Gives (literal constant) ⟨constant, .one⟩
  | tap {point : Endpoint} : Gives (tap (some point)) point
  | output {bits : List Bit} {terminal : Nat} : Gives (output bits terminal) ⟨terminal, .one⟩
  | gate {label : String} {a b : List Bit} {transformer : Nat} :
      Gives (gate label a b transformer) ⟨transformer + 1, .two⟩
  | mux {a b select : List Bit} {transformer : Nat} :
      Gives (mux a b select transformer) ⟨transformer + 1, .two⟩
  | readPort {memory index : Nat} {bits : List Bit} {point : Endpoint} :
      Gives (readPort memory index bits point) point

variable {kind : NodeKind} {color : Color} {bits : List Bit} {point : Endpoint}

/-- A wire is planned to where bits arrive, from the answer to a request for these bits. -/
theorem Takes.planned
    (takes : kind.Takes color bits point) :
    ∃ stage ∈ kind.stages, ∃ tie ∈ stage.ties, ∃ request,
      stage.requests[tie.source]? = some request ∧ request.bits = bits ∧ tie.color = color ∧
        tie.sink = point := by
  have inWrite {bank : Bank} {row source : Nat} {place : Nat}
      (inRange : row < bank.geometry.size)
      (isTie : (source, place) = (2, Bank.selectAt row) ∨ (source, place) = (3, Bank.latchAt row)) :
      (⟨.red, source, ⟨bank.first + place, .one⟩⟩ : Tie) ∈
        (List.range bank.geometry.size).flatMap fun row =>
          [(⟨.red, 2, ⟨bank.first + Bank.selectAt row, .one⟩⟩ : Tie),
            ⟨.red, 3, ⟨bank.first + Bank.latchAt row, .one⟩⟩] := by
    refine List.mem_flatMap.mpr ⟨row, List.mem_range.mpr inRange, ?_⟩
    rcases isTie with same | same <;> cases same <;> simp
  cases takes with
  | output => exact ⟨_, .head _, _, .head _, _, rfl, rfl, rfl, rfl⟩
  | first => exact ⟨_, .head _, _, .head _, _, rfl, rfl, rfl, rfl⟩
  | second => exact ⟨_, .head _, _, .tail _ (.head _), _, rfl, rfl, rfl, rfl⟩
  | select => exact ⟨_, .head _, _, .head _, _, rfl, rfl, rfl, rfl⟩
  | unselected => exact ⟨_, .head _, _, .tail _ (.head _), _, rfl, rfl, rfl, rfl⟩
  | selected => exact ⟨_, .head _, _, .tail _ (.tail _ (.head _)), _, rfl, rfl, rfl, rfl⟩
  | writeClock => exact ⟨_, .head _, _, .head _, _, rfl, rfl, rfl, rfl⟩
  | writeEnable => exact ⟨_, .head _, _, .tail _ (.head _), _, rfl, rfl, rfl, rfl⟩
  | writeAddress inRange =>
      exact ⟨_, .head _, _, .tail _ (.tail _ (inWrite inRange (.inl rfl))), _, rfl, rfl, rfl, rfl⟩
  | writeData inRange =>
      exact ⟨_, .head _, _, .tail _ (.tail _ (inWrite inRange (.inr rfl))), _, rfl, rfl, rfl, rfl⟩
  | readAddress inRange =>
      refine ⟨_, .tail _ (List.mem_map_of_mem (List.mem_range.mpr inRange)), _, .head _, _, rfl,
        rfl, rfl, rfl⟩

/-- The endpoint that a node hands out is where its value appears. -/
theorem gives_of_outlet
    (outlet : kind.outlet = some point) :
    kind.Gives point := by
  cases kind with
  | tap tapped =>
      cases outlet
      exact .tap
  | memory bank => cases outlet
  | _ =>
      obtain rfl := Option.some.inj outlet
      constructor

end NodeKind

namespace Design

open Relation

variable {design later : Design}

/-- Connect nodes one after another, whether that succeeds or fails. -/
def connectAll (design : Design) (calls : List Nat) : Design :=
  calls.foldl (fun design id => after (connect resolve id) design) design

/-- Connecting nodes one after another succeeds for all of them. -/
def ConnectsAll (design : Design) : List Nat → Prop
  | [] => True
  | id :: rest =>
      ((connect resolve id).run' design).isSome ∧
        ConnectsAll (after (connect resolve id) design) rest

instance decidableConnectsAll : ∀ design calls, Decidable (ConnectsAll design calls)
  | _, [] => .isTrue trivial
  | design, id :: rest =>
      have := decidableConnectsAll (after (connect resolve id) design) rest
      inferInstanceAs (Decidable (_ ∧ _))

/-- The nodes that are done have all their wires, and what they ask for has been begun. -/
structure Vetted (design : Design) : Prop where
  settled : ∀ id, (design.node id).wiring = .done none → design.Settled id
  begun :
    ∀ id target, (design.node id).wiring = .done none → design.Refers id target →
      (design.node target).wiring ≠ .idle

/-- Only nodes that become done have to be looked at. -/
theorem Vetted.of_follows
    (formed : design.Formed)
    (vetted : design.Vetted)
    (follows : Follows design later)
    (stay : StayBegun design later)
    (doneNew :
      ∀ id, (later.node id).wiring = .done none →
        (design.node id).wiring = .done none ∨
          later.Settled id ∧ ∀ target, later.Refers id target → (later.node target).wiring ≠ .idle) :
    later.Vetted where
  settled id done := by
    rcases doneNew id done with before | ⟨settled, -⟩
    · exact (vetted.settled id before).grows formed follows.grows follows.joined
        (inRange_of_wiring (by simp [before]))
    · exact settled
  begun id target done refers := by
    rcases doneNew id done with before | ⟨-, begun⟩
    · have refersBefore := follows.grows.refers_of_settled formed
        (inRange_of_wiring (by simp [before])) (vetted.settled id before) refers
      exact stay target (vetted.begun id target before refersBefore)
    · exact begun target refers

/-- No step takes back that a node was begun. -/
theorem Advance.stayBegun
    (step : Advance design later) :
    StayBegun design later := by
  cases step with
  | start | finish | giveUp => exact stayBegun_mark design _ (by simp)
  | literal => exact stayBegun_withLiteral design _ _
  | lay => exact fun _ begun => begun

theorem Advances.stayBegun
    (steps : Advances design later) :
    StayBegun design later := by
  induction steps with
  | refl =>
      exact fun _ begun => begun
  | tail _ step inductionHypothesis =>
      exact fun id begun => step.stayBegun id (inductionHypothesis id begun)

/-- Every step of a wiring keeps a design vetted. -/
theorem Advance.vetted
    (formed : design.Formed)
    (vetted : design.Vetted)
    (step : Advance design later) :
    later.Vetted := by
  have follows := step.follows formed
  have stay := step.stayBegun
  refine vetted.of_follows formed follows stay fun other done => ?_
  cases step with
  | start | giveUp =>
      rcases wiring_of_mark (by simp) done with before | ⟨-, -, impossible⟩
      · exact .inl before
      · cases impossible
  | literal =>
      rw [node_withLiteral] at done
      split at done
      · cases done
      · exact .inl done
  | lay =>
      exact .inl done
  | @finish id busy above settled underway =>
      rcases wiring_of_mark (by simp) done with before | ⟨rfl, inRange, -⟩
      · exact .inl before
      · refine .inr ⟨settled.grows formed follows.grows follows.joined inRange, ?_⟩
        intro target refers
        refine stay target ?_
        rcases underway target
          (follows.grows.refers_of_settled formed inRange settled refers) with isBusy | isDone
        · simp [isBusy]
        · simp [isDone]

theorem Advances.vetted
    (formed : design.Formed)
    (vetted : design.Vetted)
    (steps : Advances design later) :
    later.Vetted := by
  induction steps with
  | refl =>
      exact vetted
  | tail before step inductionHypothesis =>
      exact step.vetted (Advances.follows formed before).formed inductionHypothesis

/-! ## Nodes that a node leads to -/

/-- A node takes bits that another one produces, or it is a read port of another one. -/
inductive Leads (design : Design) (id : Nat) : Nat → Prop where
  | input
      {color : Color}
      {bits : List Bit}
      {point : Endpoint}
      {producer : Nat}
      (takes : (design.node id).kind.Takes color bits point)
      (found : design.table.find? bits = some (some producer)) :
      Leads design id producer
  | memory
      {memory index : Nat}
      {bits : List Bit}
      {point : Endpoint}
      (isPort : (design.node id).kind = .readPort memory index bits point) :
      Leads design id memory

/-- The wiring of a node is done without failure, and wherever bits arrive at the node the endpoint
is joined with that of the node which produces them. A read port has no wiring of its own. -/
structure Served (design : Design) (id : Nat) : Prop where
  done :
    (design.node id).wiring = .done none ∨
      ∃ memory index bits point, (design.node id).kind = .readPort memory index bits point
  joined :
    ∀ {color bits point}, (design.node id).kind.Takes color bits point →
      ∃ producer source,
        design.table.find? bits = some (some producer) ∧
          (design.node producer).kind.Gives source ∧ design.board.Joined color source point

/-- A node that takes bits has a wiring of its own. -/
theorem wiredNode_of_takes
    {id : Nat}
    {color : Color}
    {bits : List Bit}
    {point : Endpoint}
    (takes : (design.node id).kind.Takes color bits point) :
    design.wiredNode id = id := by
  unfold wiredNode
  split
  · rename_i isPort
    rw [isPort] at takes
    cases takes
  · rfl

/-- A wiring asks for that of every node it leads to. -/
theorem Grounded.refers_of_leads
    (grounded : design.Grounded)
    {id target : Nat}
    (leads : ReflTransGen design.Leads id target) :
    ReflTransGen design.Refers (design.wiredNode id) (design.wiredNode target) := by
  induction leads with
  | refl =>
      exact .refl
  | @tail middle last _ step inductionHypothesis =>
      cases step with
      | input takes found =>
          obtain ⟨stage, planned, tie, -, request, asked, rfl, -, -⟩ := takes.planned
          rw [wiredNode_of_takes takes] at inductionHypothesis
          exact inductionHypothesis.tail
            ⟨request, last, ⟨stage, planned, List.mem_of_getElem? asked⟩, found, rfl⟩
      | memory isPort =>
          have inRange : middle < design.nodes.size := by
            by_contra outside
            rw [node_of_outside outside] at isPort
            cases isPort
          obtain ⟨bank, isMemory, -⟩ := grounded.ports inRange isPort
          have same : design.wiredNode middle = design.wiredNode last := by
            simp only [wiredNode, isPort, isMemory]
          rw [← same]
          exact inductionHypothesis

/-- A node is served once its wiring, or that of its memory, is done and settled. -/
theorem served_of_settled
    {id : Nat}
    (done : (design.node (design.wiredNode id)).wiring = .done none)
    (settled : design.Settled (design.wiredNode id)) :
    design.Served id := by
  refine ⟨?_, fun takes => ?_⟩
  · unfold wiredNode at done
    split at done
    · rename_i isPort
      exact .inr ⟨_, _, _, _, isPort⟩
    · exact .inl done
  · rw [wiredNode_of_takes takes] at settled
    obtain ⟨stage, planned, tie, laid, request, asked, rfl, rfl, rfl⟩ := takes.planned
    obtain ⟨producer, source, resolved⟩ :=
      settled.resolved request ⟨stage, planned, List.mem_of_getElem? asked⟩
    refine ⟨producer, source, resolved.1, NodeKind.gives_of_outlet resolved.2.1, ?_⟩
    exact settled.carried _ (.tie planned laid asked resolved) source (.head _) tie.sink
      (.tail _ (.head _))

/-! ## What a call keeps -/

/-- What every step keeps that is taken while a node is being wired is kept by all of them. -/
theorem Advances.preserves_while_busy
    {motive : Design → Prop}
    {top : Nat}
    (formed : design.Formed)
    (steps : Advances design later)
    (busy : (design.node top).wiring = .busy)
    (busyLater : (later.node top).wiring = .busy)
    (holds : motive design)
    (keeps :
      ∀ {before next}, (before.node top).wiring = .busy → motive before → Advance before next →
        motive next) :
    motive later := by
  induction steps with
  | refl =>
      exact holds
  | @tail middle later before step inductionHypothesis =>
      have busyMiddle : (middle.node top).wiring = .busy := by
        cases wiring : (middle.node top).wiring with
        | busy => rfl
        | idle => exact absurd wiring (Advances.stayBegun before top (by simp [busy]))
        | done outcome =>
            have doneLater := (step.follows (Advances.follows formed before).formed).done_eq wiring
            rw [busyLater] at doneLater
            cases doneLater
      exact keeps busyMiddle (inductionHypothesis busyMiddle) step

/-- Wiring a node, with nothing else being wired, takes no step but while the node itself is being
wired. So it keeps what its beginning and all such steps keep. -/
theorem wireNode_preserves
    {motive : Design → Prop}
    {top : Nat}
    (formed : design.Formed)
    (inRange : top < design.nodes.size)
    (quiet : ∀ other, (design.node other).wiring ≠ .busy)
    (holds : motive design)
    (starts : Advance design (design.mark top .busy) → motive (design.mark top .busy))
    (keeps :
      ∀ {before next}, (before.node top).wiring = .busy → motive before → Advance before next →
        motive next) :
    Ensures (wireNode resolve design.wiringDepth top design)
      (fun _ later => motive later) (fun _ later => motive later) := by
  rw [wiringDepth, wireNode, bind_of_ok (get_run design)]
  cases wiring : (design.node top).wiring with
  | busy => exact holds
  | done outcome => cases outcome <;> exact holds
  | idle =>
      have above : ∀ other, (design.node other).wiring = .busy → TransGen design.Refers other top :=
        fun other busy => absurd busy (quiet other)
      have start : Advance design (design.mark top .busy) := .start inRange wiring above
      have marked : ((design.mark top .busy).node top).wiring = .busy := by
        simp [node_mark design inRange]
      -- The stages leave the same nodes busy, so the node itself is busy at their end, and between.
      have during {later : Design} (passes : Passes (design.mark top .busy) later) :
          (later.node top).wiring = .busy ∧ motive later := by
        have busyLater := (passes.busy top).mpr marked
        exact ⟨busyLater, passes.steps.preserves_while_busy (start.follows formed).formed marked
          busyLater (starts start) keeps⟩
      apply Ensures.bind
      rw [setWiring_run]
      apply Ensures.bind
      apply outcome_ensures
      refine (begun_ensures (wiresWithin _) formed inRange wiring above
        design.card_openNodes_lt).mono ?_ ?_
      · rintro _ later ⟨passes, finish⟩
        exact keeps (during passes).1 (during passes).2 finish
      · rintro failure later ⟨ordinary, passes, giveUp⟩
        exact ⟨ordinary, keeps (during passes).1 (during passes).2 giveUp⟩

theorem connect_preserves
    {motive : Design → Prop}
    {id : Nat}
    (formed : design.Formed)
    (inRange : id < design.nodes.size)
    (quiet : ∀ other, (design.node other).wiring ≠ .busy)
    (holds : motive design)
    (starts :
      Advance design (design.mark (design.wiredNode id) .busy) →
        motive (design.mark (design.wiredNode id) .busy))
    (keeps :
      ∀ {before next}, (before.node (design.wiredNode id)).wiring = .busy → motive before →
        Advance before next → motive next) :
    motive (after (connect resolve id) design) := by
  refine after_of_ensures ?_
  rw [connect_run]
  exact connectWith_ensures
    (wireNode_preserves formed (formed.wiredNode_lt inRange) quiet holds starts keeps)

/-- A design after calls, with nothing being wired. -/
structure AtRest (base design : Design) : Prop where
  follows : Follows base design
  grounded : design.Grounded
  quiet : ∀ id, (design.node id).wiring ≠ .busy
  vetted : design.Vetted

namespace AtRest

variable {base : Design}

theorem passes
    (atRest : AtRest base design)
    (passes : Passes design later) :
    AtRest base later where
  follows := atRest.follows.trans (passes.steps.follows atRest.follows.formed)
  grounded := atRest.grounded.advances passes.steps
  quiet id busy := atRest.quiet id ((passes.busy id).mp busy)
  vetted := passes.steps.vetted atRest.follows.formed atRest.vetted

theorem rebase
    (atRest : AtRest base design) :
    AtRest design design :=
  ⟨.refl atRest.follows.formed, atRest.grounded, atRest.quiet, atRest.vetted⟩

theorem inRange
    (atRest : AtRest base design)
    {id : Nat}
    (known : id < base.nodes.size) :
    id < design.nodes.size :=
  Nat.lt_of_lt_of_le known atRest.follows.grows.size_le

theorem connect
    (atRest : AtRest base design)
    {id : Nat}
    (known : id < base.nodes.size) :
    AtRest base (after (connect resolve id) design) :=
  atRest.passes (passes_connect atRest.follows.formed (atRest.inRange known) atRest.quiet)

theorem connectAll
    (atRest : AtRest base design)
    {calls : List Nat}
    (known : ∀ id ∈ calls, id < base.nodes.size) :
    AtRest base (design.connectAll calls) := by
  induction calls generalizing design with
  | nil =>
      exact atRest
  | cons id rest inductionHypothesis =>
      obtain ⟨firstKnown, restKnown⟩ := List.forall_mem_cons.mp known
      exact inductionHypothesis (atRest.connect firstKnown) restKnown

end AtRest

theorem Fresh.atRest
    (fresh : design.Fresh) :
    AtRest design design where
  follows := .refl fresh.formed
  grounded := fresh.grounded
  quiet id := by simp [fresh.idle]
  vetted :=
    ⟨fun id done => by simp [fresh.idle] at done, fun id _ done => by simp [fresh.idle] at done⟩

/-- A call that succeeds leaves no node failed that had not failed before. -/
theorem spares_connect
    {id : Nat}
    {point : Option Endpoint}
    (connected : connect resolve id design = .ok point later) :
    Spares design later := by
  obtain ⟨journal, noted⟩ := design.exists_notedOnce
  have tracked := tracks_connect id design journal noted
  rw [TracksAt, connected] at tracked
  exact tracked.1

theorem unfailed_connectAll
    (unfailed : ∀ id failure, (design.node id).wiring ≠ .done (some failure))
    {calls : List Nat}
    (succeeds : design.ConnectsAll calls) :
    ∀ id failure, ((design.connectAll calls).node id).wiring ≠ .done (some failure) := by
  induction calls generalizing design with
  | nil =>
      exact unfailed
  | cons call rest inductionHypothesis =>
      obtain ⟨returns, restSucceeds⟩ := succeeds
      obtain ⟨point, returned⟩ := Option.isSome_iff_exists.mp returns
      have connected := eq_ok_after returned
      refine inductionHypothesis (fun id failure failed => ?_) restSucceeds
      exact unfailed id failure (spares_connect connected id failure failed)

/-- Where no wiring has failed or is under way, all that a wired node leads to is wired. -/
theorem Vetted.done_of_leads
    (vetted : design.Vetted)
    (quiet : ∀ id, (design.node id).wiring ≠ .busy)
    (unfailed : ∀ id failure, (design.node id).wiring ≠ .done (some failure))
    {id target : Nat}
    (done : (design.node id).wiring = .done none)
    (leads : ReflTransGen design.Refers id target) :
    (design.node target).wiring = .done none := by
  induction leads with
  | refl =>
      exact done
  | @tail middle last _ refers inductionHypothesis =>
      have begun := vetted.begun middle last inductionHypothesis refers
      cases wiring : (design.node last).wiring with
      | idle => exact absurd wiring begun
      | busy => exact absurd wiring (quiet last)
      | done outcome =>
          cases outcome with
          | none => rfl
          | some failure => exact absurd wiring (unfailed last failure)

/-! ## Journals and depth -/

/-- Connect nodes one after another with a journal, whether that succeeds or fails. -/
def Journaled.connectAll (state : Design × List Nat) (calls : List Nat) : Design × List Nat :=
  calls.foldl
    (fun state id =>
      match Journaled.connect resolve id state with
      | .ok _ later => later
      | .error _ later => later)
    state

/-- The journal of a sequence of calls names each node that was begun once. -/
theorem AtRest.journal_connectAll
    {base : Design}
    (atRest : AtRest base design)
    {calls journal : List Nat}
    (known : ∀ id ∈ calls, id < base.nodes.size)
    (noted : NotedOnce (design, journal)) :
    ∃ last,
      Journaled.connectAll (design, journal) calls = (design.connectAll calls, last) ∧
        NotedOnce (design.connectAll calls, last) := by
  induction calls generalizing design journal with
  | nil =>
      exact ⟨journal, rfl, noted⟩
  | cons id rest inductionHypothesis =>
      obtain ⟨firstKnown, restKnown⟩ := List.forall_mem_cons.mp known
      have restAtRest := atRest.connect firstKnown
      have tracked := tracks_connect id design journal noted
      have ensured := connect_ensures atRest.follows.formed (atRest.inRange firstKnown) atRest.quiet
      rw [Design.connectAll, List.foldl_cons, Journaled.connectAll, List.foldl_cons]
      rw [after] at restAtRest ⊢
      rw [TracksAt] at tracked
      cases ran : Design.connect resolve id design with
      | ok point later =>
          rw [ran] at tracked restAtRest
          obtain ⟨-, next, journalRan, notedNext⟩ := tracked
          rw [journalRan]
          exact inductionHypothesis restAtRest restKnown notedNext.toNotedOnce
      | error failure later =>
          rw [ran] at tracked ensured restAtRest
          obtain ⟨next, journalRan, notedNext⟩ := tracked ensured.2.1
          rw [journalRan]
          exact inductionHypothesis restAtRest restKnown notedNext.toNotedOnce

/-- What an operation with a journal does, without the journal. -/
def Journaled.forget {α : Type} (operation : Journaled α) (journal : List Nat) : Synthesis α :=
  fun design =>
    match operation (design, journal) with
    | .ok value state => .ok value state.1
    | .error failure state => .error failure state.1

theorem Tracks.eq_forget
    {α : Type}
    {operation : Synthesis α}
    {journaled : Journaled α}
    (tracks : Tracks operation journaled)
    {journal : List Nat}
    (noted : NotedOnce (design, journal))
    (answers :
      Ensures (operation design) (fun _ _ => True) (fun failure _ => failure.cause.isOrdinary)) :
    operation design = journaled.forget journal design := by
  have tracked := tracks design journal noted
  rw [TracksAt] at tracked
  rw [Journaled.forget]
  cases ran : operation design with
  | ok value later =>
      rw [ran] at tracked
      obtain ⟨-, journal, journalRan, -⟩ := tracked
      rw [journalRan]
  | error failure later =>
      rw [ran] at tracked answers
      obtain ⟨journal, journalRan, -⟩ := tracked answers
      rw [journalRan]

/-- More levels of recursion make no difference. -/
theorem connectWith_eq_connect
    (formed : design.Formed)
    {id depth : Nat}
    (inRange : id < design.nodes.size)
    (quiet : ∀ other, (design.node other).wiring ≠ .busy)
    (deep : design.wiringDepth ≤ depth) :
    connectWith (wireNode resolve depth) id design = connect resolve id design := by
  obtain ⟨journal, noted⟩ := design.exists_notedOnce
  -- Neither crashes, so both do what the journaled wiring does at the greater depth.
  have same (levels : Nat) (within : levels ≤ depth) (enough : design.openNodes.card < levels) :
      connectWith (wireNode resolve levels) id design =
        (Journaled.connectWith (Journaled.wireNode resolve depth) id).forget journal design := by
    refine (Tracks.connectWith (fun id => tracks_wireNode within id) id).eq_forget noted ?_
    exact (connectAt_ensures formed inRange quiet enough).mono (fun _ _ _ => trivial)
      fun _ _ failed => failed.2.1
  have enough := design.card_openNodes_lt
  rw [connect_run, same _ deep enough, same _ (Nat.le_refl depth) (Nat.lt_of_lt_of_le enough deep)]

/-- A node whose wiring failed gives its failure again and changes nothing. -/
theorem connect_of_failed
    {id : Nat}
    {failure : Failure}
    (failed : (design.node (design.wiredNode id)).wiring = .done (some failure)) :
    connect resolve id design = .error failure design := by
  have refused : wireNode resolve design.wiringDepth (design.wiredNode id) design =
      .error failure design := by
    rw [wiringDepth, wireNode, bind_of_ok (get_run design)]
    simp only [failed]
    rfl
  rw [connect_run, connectWith, bind_of_ok (get_run design)]
  simp only [bind, EStateM.bind, refused]

/-- Whatever way nodes ask for each other, and whichever are connected one after another:
connecting a node ends, and fails only in ways that are answers; the wiring of each node that was
begun was run once; a failure is given again by every later call; and if all calls before succeeded,
then a call that succeeds leaves all nodes that the node leads to wired without failure, with every
input joined to its producer. -/
theorem connect_ends_and_settles
    (drafted : design.Drafted)
    {calls : List Nat}
    (known : ∀ call ∈ calls, call < design.nodes.size)
    {id : Nat}
    (inRange : id < design.nodes.size) :
    let current := design.connectAll calls
    (∀ depth, current.wiringDepth ≤ depth →
      connectWith (wireNode resolve depth) id current = connect resolve id current) ∧
    (∀ failure later, connect resolve id current = .error failure later →
      failure.cause.isOrdinary ∧
        (later.node (later.wiredNode id)).wiring = .done (some failure)) ∧
    (∃ journal,
      Journaled.connectAll (design, []) calls = (current, journal) ∧ journal.Nodup ∧
        ∀ node, node ∈ journal ↔ (current.node node).wiring ≠ .idle) ∧
    (∀ failure, (current.node (current.wiredNode id)).wiring = .done (some failure) →
      ∀ more : List Nat, (∀ call ∈ more, call < design.nodes.size) →
        connect resolve id (current.connectAll more) =
          .error failure (current.connectAll more)) ∧
    (design.ConnectsAll calls →
      ∀ point later, connect resolve id current = .ok point later →
        ∀ target, ReflTransGen later.Leads id target → later.Served target) := by
  intro current
  have fresh := drafted.fresh
  have atRest := fresh.atRest.connectAll known
  have inRangeNow := atRest.inRange inRange
  have ensured := connect_ensures atRest.follows.formed inRangeNow atRest.quiet
  refine ⟨fun depth deep => ?_, fun failure later failed => ?_, ?_,
    fun failure failed more known => ?_, fun succeeds point later connected target leads => ?_⟩
  · exact connectWith_eq_connect atRest.follows.formed inRangeNow atRest.quiet deep
  · rw [failed] at ensured
    exact ensured.2
  · obtain ⟨journal, ran, noted⟩ :=
      fresh.atRest.journal_connectAll known ⟨.nil, by simp [fresh.idle]⟩
    exact ⟨journal, ran, noted.nodup, noted.noted⟩
  · have follows := (atRest.rebase.connectAll fun call member =>
      atRest.inRange (known call member)).follows
    apply connect_of_failed
    rw [follows.grows.wiredNode_eq inRangeNow]
    exact follows.done_eq failed
  · rw [connected] at ensured
    obtain ⟨passes, done, -⟩ := ensured
    have atRestLater := atRest.passes passes
    have unfailed := unfailed_connectAll (fun id failure => by simp [fresh.idle]) succeeds
    have doneTarget := atRestLater.vetted.done_of_leads atRestLater.quiet
      (fun id failure failed => unfailed id failure (spares_connect connected id failure failed))
      done (atRestLater.grounded.refers_of_leads leads)
    exact served_of_settled doneTarget (atRestLater.vetted.settled _ doneTarget)

/-- Additions to nothing, none of which is a tap. -/
theorem drafted_ofAdditions
    (additions : List Addition)
    (reaches : ∀ addition ∈ additions, ∀ board, addition.Reaches board) :
    (ofAdditions additions).Drafted := by
  have step (design : Design) (drafted : design.Drafted) :
      (additions.foldl (fun design addition => after addition.run design) design).Drafted := by
    induction additions generalizing design with
    | nil =>
        exact drafted
    | cons addition rest inductionHypothesis =>
        obtain ⟨first, others⟩ := List.forall_mem_cons.mp reaches
        exact inductionHypothesis others _ (drafted.tail (.add addition (first _)))
  exact step {} .refl

/-- An adder and a multiplexer that ask for each other's values, and the multiplexer also for its
own; an output for the multiplexer, and one for a value that nothing produces. -/
def loop : Design :=
  { ofAdditions [.operation .add [.net 3] [.one], .mux [.net 2] [.zero] [.net 3],
      .output [.net 3], .output [.net 4]] with
    table := (({} : Table).add [.net 2] (some 0)).add [.net 3] (some 1) }

theorem drafted_loop : loop.Drafted := by
  refine (drafted_ofAdditions _ ?_).tail (.use (((names_empty _).add _ ?_).add _ ?_))
  · simp [Addition.Reaches]
  · decide +kernel
  · decide +kernel

/-- The output of the loop is connected after its adder, which it leads to through the multiplexer,
and the other output fails each time. -/
theorem connect_ends_and_settles_loop :
    (∃ later,
      connect resolve 2 (loop.connectAll [0]) = .ok (some ⟨5, .one⟩) later ∧
        ReflTransGen later.Leads 2 0 ∧
        ∀ target, ReflTransGen later.Leads 2 target → later.Served target) ∧
    ∀ more : List Nat, (∀ call ∈ more, call < loop.nodes.size) →
      connect resolve 3 ((loop.connectAll [0, 3]).connectAll more) =
        .error ⟨["output [4]"], .reason (.noProducer [.net 4])⟩
          ((loop.connectAll [0, 3]).connectAll more) := by
  have known : (∀ call ∈ [0, 3], call < loop.nodes.size) ∧ 2 < loop.nodes.size := by decide +kernel
  have returned : loop.ConnectsAll [0] ∧
      (connect resolve 2).run' (loop.connectAll [0]) = some (some ⟨5, .one⟩) := by
    decide +kernel
  have failed :
      ((loop.connectAll [0, 3]).node ((loop.connectAll [0, 3]).wiredNode 3)).wiring =
        .done (some ⟨["output [4]"], .reason (.noProducer [.net 4])⟩) := by
    decide +kernel
  have knownFirst : ∀ call ∈ [0], call < loop.nodes.size := by decide +kernel
  obtain ⟨-, -, -, -, settles⟩ := connect_ends_and_settles drafted_loop knownFirst known.2
  obtain ⟨-, -, -, again, -⟩ := connect_ends_and_settles drafted_loop known.1 (known.1 3 (by simp))
  have connected := eq_ok_after returned.2
  have toMux : (after (connect resolve 2) (loop.connectAll [0])).Leads 2 1 := by
    have takes : ((after (connect resolve 2) (loop.connectAll [0])).node 2).kind.Takes
        .red [.net 3] ⟨5, .one⟩ := by
      have kind : ((after (connect resolve 2) (loop.connectAll [0])).node 2).kind =
          .output [.net 3] 5 := by
        decide +kernel
      exact kind ▸ .output
    exact .input takes (by decide +kernel)
  have toAdder : (after (connect resolve 2) (loop.connectAll [0])).Leads 1 0 := by
    have takes : ((after (connect resolve 2) (loop.connectAll [0])).node 1).kind.Takes
        .red [.net 2] ⟨3, .one⟩ := by
      have kind : ((after (connect resolve 2) (loop.connectAll [0])).node 1).kind =
          .mux [.net 2] [.zero] [.net 3] 2 := by
        decide +kernel
      exact kind ▸ .unselected
    exact .input takes (by decide +kernel)
  have leads := ReflTransGen.tail (.single toMux) toAdder
  exact ⟨⟨_, connected, leads, settles returned.1 _ _ connected⟩, again _ failed⟩

end Design

end CircuitNetwork
