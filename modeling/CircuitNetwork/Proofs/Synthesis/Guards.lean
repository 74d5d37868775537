import CircuitNetwork.Proofs.Memory.Checks
import CircuitNetwork.Proofs.Synthesis.Drafts

namespace CircuitNetwork

/-!
# Guarded wiring

A guarded wiring stops where the piece of a connection that a node asks for does
not exist, and where a wire would be laid from or to nothing. The plain one takes
what there is and leaves such a wire out. In a design that was built from nothing
both do the same, so that nothing is ever missing.
-/

/-- The code that asks for one color. -/
def Color.code : Color → ColorCode
  | red => .red
  | green => .green

namespace Board

/-- An endpoint, if the board has such a port. -/
def port? (board : Board) (point : Endpoint) : Option Endpoint :=
  if board.HasPort point then some point else none

theorem port?_eq
    {board : Board}
    {point : Endpoint}
    (hasPort : board.HasPort point) :
    board.port? point = some point :=
  if_pos hasPort

/-- Endpoints that are there can be connected in one color. -/
theorem connect_code
    (board : Board)
    (color : Color)
    {points : List Endpoint}
    (several : 2 ≤ points.length) :
    board.connect color.code (points.map some) = .ok (board.wire color points) := by
  have present : (points.map some).mapM id = some points := by
    have kept : points.mapM (fun point => (pure (id point) : Option Endpoint)) =
        pure (points.map id) := List.mapM_pure
    simpa [List.mapM_map] using kept
  have oneColor : color.code.wires? = some [color] := by
    cases color <;> rfl
  rw [connect, if_neg (by rw [List.length_map]; omega), present]
  simp only [oneColor]
  rfl

end Board

/-- The vectors that a memory asks for, stage by stage, as they are cut out of its connections. -/
def Bank.vectors (bank : Bank) : List (List (Option (List Bit))) :=
  let width := bank.geometry.addressBits
  [some bank.writeClock, Bit.slice? bank.writeEnable 0 1, some bank.writeAddress,
      some bank.writeData] ::
    (List.range bank.geometry.readPorts).map fun port =>
      [Bit.slice? bank.readAddress (port * width) ((port + 1) * width)]

/-- The vectors of the requests of a plan. -/
def plannedVectors (stages : List Stage) : List (List (Option (List Bit))) :=
  stages.map fun stage => stage.requests.map fun request => some request.bits

/-- The vectors that a node asks for, stage by stage. Only those of a memory are cut out. -/
def NodeKind.vectors : NodeKind → List (List (Option (List Bit)))
  | memory bank => bank.vectors
  | kind => plannedVectors kind.stages

theorem Bank.Describes.vectors_eq
    {bank : Bank}
    {cell : Cell}
    (describes : bank.Describes cell) :
    bank.vectors = plannedVectors bank.stages := by
  have enable : Bit.slice? bank.writeEnable 0 1 = some bank.writeEnable := by
    simp [Bit.slice?, describes.length_writeEnable, List.take_of_length_le]
  simp only [vectors, plannedVectors, stages, enable, List.map_cons, List.map_nil, List.map_map,
    List.cons.injEq, true_and]
  refine List.map_congr_left fun port listed => ?_
  rw [describes.slice?_readAddress (List.mem_range.mp listed)]
  rfl

/-- A wire is planned only from a request of its stage. -/
theorem NodeKind.source_lt
    {kind : NodeKind}
    {stage : Stage}
    (planned : stage ∈ kind.stages)
    {tie : Tie}
    (laid : tie ∈ stage.ties) :
    tie.source < stage.requests.length := by
  cases kind with
  | memory bank =>
      simp only [stages, Bank.stages, List.mem_cons, List.mem_map] at planned
      rcases planned with rfl | ⟨port, -, rfl⟩
      · simp only [List.mem_cons, List.mem_flatMap, List.not_mem_nil, or_false] at laid
        rcases laid with rfl | rfl | ⟨row, -, rfl | rfl⟩ <;> simp
      · simp_all
  | _ => simp_all [stages] <;> grind

namespace Design

variable {α β : Type} {design later : Design}

namespace Guarded

/-- Answer a request for a piece of a connection. -/
def answer
    (wire : Nat → Synthesis Unit)
    (resolver : Resolver)
    (asked : Request × Option (List Bit)) :
    Synthesis Endpoint :=
  match asked.2 with
  | some bits => Design.answer wire resolver { asked.1 with bits := bits }
  | none => throw (.ofCrash .impossibleLength)

/-- Connect the answer to a request with an inlet. Both must be there. -/
def tie (sources : List Endpoint) (wire : Tie) : Synthesis Unit := do
  let board := (← get).board
  match board.connect wire.color.code [sources[wire.source]?, board.port? wire.sink] with
  | .ok wired => modify fun design => { design with board := wired }
  | .error misuse => throw (.ofMisuse misuse)

/-- Answer the requests of a stage for the given vectors, then lay its wires. -/
def runStage
    (wire : Nat → Synthesis Unit)
    (resolver : Resolver)
    (planned : Stage × List (Option (List Bit))) :
    Synthesis Unit := do
  let sources ← (planned.1.requests.zip planned.2).mapM (answer wire resolver)
  planned.1.ties.forM (tie sources)

/-- Wire a node, unless that was already begun. -/
def wireNode (resolver : Resolver) : Nat → Nat → Synthesis Unit
  | 0, _ => throw (.ofCrash .tooDeep)
  | depth + 1, id => do
      let node := (← get).node id
      match node.wiring with
      | .busy => pure ()
      | .done none => pure ()
      | .done (some failure) => throw failure
      | .idle =>
          setWiring id .busy
          let failure? ← outcome
            ((node.kind.stages.zip node.kind.vectors).forM
              (runStage (wireNode resolver depth) resolver))
          setWiring id (.done failure?)
          match failure? with
          | some failure => throw failure
          | none => pure ()

/-- Wire a node and return the endpoint that carries its value. -/
def connect (resolver : Resolver) (id : Nat) : Synthesis (Option Endpoint) := do
  connectWith (wireNode resolver (← get).wiringDepth) id

end Guarded

/-! ## Designs in which nothing is missing -/

/-- The inlets of all nodes are there, and memories have the connections of a cell. -/
structure Planned (design : Design) : Prop where
  inlets :
    ∀ {id color point}, (design.node id).kind.Inlet color point → design.board.HasPort point
  memories : ∀ {id bank}, (design.node id).kind = .memory bank → ∃ cell, bank.Describes cell

/-- Nothing is missing from a design that has all entities of an earlier one. -/
structure Extends (design later : Design) : Prop where
  planned : later.Planned
  keeps : design.board.Keeps later.board

theorem Planned.vectors_eq
    (planned : design.Planned)
    (id : Nat) :
    (design.node id).kind.vectors = plannedVectors (design.node id).kind.stages := by
  cases isKind : (design.node id).kind with
  | memory bank =>
      obtain ⟨cell, describes⟩ := planned.memories isKind
      exact describes.vectors_eq
  | _ => rfl

namespace Extends

theorem refl
    (planned : design.Planned) :
    Extends design design :=
  ⟨planned, Board.keeps_of_entities_eq rfl⟩

theorem trans
    {last : Design}
    (first : Extends design later)
    (second : Extends later last) :
    Extends design last :=
  ⟨second.planned, first.keeps.trans second.keeps⟩

/-- Entities and nodes without inputs may be added. -/
theorem of_kinds
    (planned : design.Planned)
    (keeps : design.board.Keeps later.board)
    (kinds :
      ∀ id, (later.node id).kind = (design.node id).kind ∨ (later.node id).kind.stages = []) :
    Extends design later := by
  refine ⟨⟨?_, ?_⟩, keeps⟩
  · intro id color point inlet
    rcases kinds id with same | none
    · rw [same] at inlet
      exact (planned.inlets inlet).keeps keeps
    · obtain ⟨stage, listed, -⟩ := inlet
      rw [none] at listed
      cases listed
  · intro id bank isMemory
    rcases kinds id with same | none
    · exact planned.memories (same ▸ isMemory)
    · rw [isMemory] at none
      cases none

theorem mark
    (planned : design.Planned)
    (id : Nat)
    (wiring : Wiring) :
    Extends design (design.mark id wiring) :=
  of_kinds planned (Board.keeps_of_entities_eq rfl) fun other => .inl (kind_mark design id wiring other)

theorem withLiteral
    (planned : design.Planned)
    (bits : List Bit)
    (count : Int32) :
    Extends design (design.withLiteral bits count) := by
  refine of_kinds planned (design.board.keeps_install _) fun id => ?_
  rw [node_withLiteral]
  split
  · exact .inr rfl
  · exact .inl rfl

theorem wire
    (planned : design.Planned)
    (color : Color)
    (points : List Endpoint) :
    Extends design { design with board := design.board.wire color points } :=
  of_kinds planned (Board.keeps_of_entities_eq (Board.entities_wire ..)) fun _ => .inl rfl

end Extends

/-! ## Agreement -/

/-- A guarded operation does with a design what the plain one does, and nothing is missing from what
they leave. -/
structure AgreesAt (guarded plain : Synthesis α) (design : Design) : Prop where
  run_eq : guarded design = plain design
  ensured :
    Ensures (plain design)
      (fun _ later => Extends design later) (fun _ later => Extends design later)

/-- A guarded operation agrees with the plain one wherever nothing is missing. -/
def Agrees (guarded plain : Synthesis α) : Prop :=
  ∀ design, design.Planned → AgreesAt guarded plain design

theorem AgreesAt.bind
    {guarded plain : Synthesis α}
    {nextGuarded nextPlain : α → Synthesis β}
    (agrees : AgreesAt guarded plain design)
    (next :
      ∀ {value middle}, plain design = .ok value middle → Extends design middle →
        AgreesAt (nextGuarded value) (nextPlain value) middle) :
    AgreesAt (guarded >>= nextGuarded) (plain >>= nextPlain) design := by
  obtain ⟨same, ensured⟩ := agrees
  cases ran : plain design with
  | error failure middle =>
      rw [ran] at same ensured
      exact ⟨by rw [bind_of_error same, bind_of_error ran], by rw [bind_of_error ran]; exact ensured⟩
  | ok value middle =>
      rw [ran] at same ensured
      obtain ⟨sameNext, ensuredNext⟩ := next ran ensured
      refine ⟨by rw [bind_of_ok same, bind_of_ok ran, sameNext], ?_⟩
      rw [bind_of_ok ran]
      exact ensuredNext.mono (fun _ _ => ensured.trans) fun _ _ => ensured.trans

namespace Agrees

theorem pure
    (value : α) :
    Agrees (pure value) (pure value) :=
  fun _ planned => ⟨rfl, .refl planned⟩

theorem throw
    (failure : Failure) :
    Agrees (throw failure : Synthesis α) (throw failure) :=
  fun _ planned => ⟨rfl, .refl planned⟩

theorem get : Agrees (MonadState.get : Synthesis Design) MonadState.get :=
  fun _ planned => ⟨rfl, .refl planned⟩

theorem bind
    {guarded plain : Synthesis α}
    {nextGuarded nextPlain : α → Synthesis β}
    (agrees : Agrees guarded plain)
    (next : ∀ value, Agrees (nextGuarded value) (nextPlain value)) :
    Agrees (guarded >>= nextGuarded) (plain >>= nextPlain) :=
  fun design planned => (agrees design planned).bind fun _ onward => next _ _ onward.planned

theorem mapM
    {guarded plain : α → Synthesis β}
    (agrees : ∀ item, Agrees (guarded item) (plain item))
    (items : List α) :
    Agrees (items.mapM guarded) (items.mapM plain) := by
  induction items with
  | nil =>
      exact .pure []
  | cons item rest inductionHypothesis =>
      rw [List.mapM_cons, List.mapM_cons]
      exact .bind (agrees item) fun value => .bind inductionHypothesis fun values => .pure _

theorem labelled
    {guarded plain : Synthesis α}
    (agrees : Agrees guarded plain)
    (label : String) :
    Agrees (Design.labelled label guarded) (Design.labelled label plain) := by
  intro design planned
  obtain ⟨same, ensured⟩ := agrees design planned
  refine ⟨?_, labelled_ensures ensured⟩
  simp only [Design.labelled, tryCatch, tryCatchThe, MonadExceptOf.tryCatch, EStateM.tryCatch, same]

theorem resolve
    (bits : List Bit) :
    Agrees (Design.resolve bits) (Design.resolve bits) := by
  refine fun design planned => ⟨rfl, ?_⟩
  have stay : Extends design design := .refl planned
  rw [resolve_run]
  cases design.table.find? bits with
  | some node => exact stay
  | none =>
      by_cases constant : bits.all (·.isConst)
      · simp only [constant, ↓reduceIte]
        cases literalCount bits with
        | ok count => exact .withLiteral planned bits count
        | error failure => exact stay
      · simp only [constant]
        exact stay

variable {guardedWire wire : Nat → Synthesis Unit}

theorem connectWith
    (agrees : ∀ id, Agrees (guardedWire id) (wire id))
    (id : Nat) :
    Agrees (Design.connectWith guardedWire id) (Design.connectWith wire id) :=
  .bind .get fun _ => .bind (agrees _) fun _ => .bind .get fun _ => .pure _

theorem connectInputWith
    (agrees : ∀ id, Agrees (guardedWire id) (wire id))
    (bits : List Bit) :
    Agrees (Design.connectInputWith guardedWire Design.resolve bits)
      (Design.connectInputWith wire Design.resolve bits) := by
  refine .bind (.resolve bits) fun node => ?_
  cases node with
  | none => exact .throw _
  | some id =>
      refine .bind (.connectWith agrees id) fun point => ?_
      cases point with
      | none => exact .throw _
      | some point => exact .pure _

theorem answer
    (agrees : ∀ id, Agrees (guardedWire id) (wire id))
    (request : Request) :
    Agrees (Guarded.answer guardedWire Design.resolve (request, some request.bits))
      (Design.answer wire Design.resolve request) := by
  refine .bind (.labelled (.connectInputWith agrees request.bits) request.label) ?_
  rintro ⟨id, point⟩
  refine .bind .get fun design => ?_
  split
  · exact .throw _
  · exact .pure _

end Agrees

/-! ## Laying wires -/

/-- The inlets of a stage are there, and its wires come from its requests. -/
def Layable (board : Board) (stage : Stage) : Prop :=
  ∀ tie ∈ stage.ties, board.HasPort tie.sink ∧ tie.source < stage.requests.length

theorem Layable.keeps
    {board other : Board}
    {stage : Stage}
    (layable : Layable board stage)
    (keeps : board.Keeps other) :
    Layable other stage := by
  intro tie laid
  obtain ⟨hasPort, answered⟩ := layable tie laid
  exact ⟨hasPort.keeps keeps, answered⟩

theorem AgreesAt.tie
    (planned : design.Planned)
    {sources : List Endpoint}
    {wire : Tie}
    (hasPort : design.board.HasPort wire.sink)
    (answered : wire.source < sources.length) :
    AgreesAt (Guarded.tie sources wire) (Design.tie sources wire) design := by
  have found := List.getElem?_eq_getElem answered
  have connected := design.board.connect_code wire.color
    (show 2 ≤ [sources[wire.source], wire.sink].length from Nat.le_refl 2)
  refine ⟨?_, ?_⟩
  · rw [Guarded.tie, bind_of_ok (get_run design), Design.tie, found, Board.port?_eq hasPort]
    simp only [List.map_cons, List.map_nil] at connected
    simp only [connected]
    rfl
  · rw [Design.tie, found]
    exact .wire planned _ _

theorem AgreesAt.ties
    (planned : design.Planned)
    {sources : List Endpoint}
    {ties : List Tie}
    (layable : ∀ tie ∈ ties, design.board.HasPort tie.sink ∧ tie.source < sources.length) :
    AgreesAt (ties.forM (Guarded.tie sources)) (ties.forM (Design.tie sources)) design := by
  induction ties generalizing design with
  | nil =>
      exact Agrees.pure () design planned
  | cons wire rest inductionHypothesis =>
      obtain ⟨⟨hasPort, answered⟩, layableRest⟩ := List.forall_mem_cons.mp layable
      refine (AgreesAt.tie planned hasPort answered).bind fun _ onward => ?_
      exact inductionHypothesis onward.planned fun tie listed =>
        ⟨(layableRest tie listed).1.keeps onward.keeps, (layableRest tie listed).2⟩

/-- A list next to what is made of its items. -/
theorem zip_map_self
    (items : List α)
    (make : α → β) :
    items.zip (items.map make) = items.map fun item => (item, make item) := by
  rw [List.zip_eq_zipWith, List.zipWith_map_right, List.zipWith_self]

theorem AgreesAt.runStage
    {guardedWire wire : Nat → Synthesis Unit}
    (agrees : ∀ id, Agrees (guardedWire id) (wire id))
    (planned : design.Planned)
    {stage : Stage}
    (layable : Layable design.board stage) :
    AgreesAt
      (Guarded.runStage guardedWire resolve
        (stage, stage.requests.map fun request => some request.bits))
      (Design.runStage wire resolve stage) design := by
  have answers := Agrees.mapM (fun request => Agrees.answer agrees request) stage.requests
  rw [Guarded.runStage]
  simp only [zip_map_self, List.mapM_map]
  refine (answers design planned).bind fun ran onward => AgreesAt.ties onward.planned ?_
  rw [length_of_mapM_eq_ok ran]
  exact layable.keeps onward.keeps

theorem AgreesAt.stages
    {guardedWire wire : Nat → Synthesis Unit}
    (agrees : ∀ id, Agrees (guardedWire id) (wire id))
    (planned : design.Planned)
    {stages : List Stage}
    (layable : ∀ stage ∈ stages, Layable design.board stage) :
    AgreesAt ((stages.zip (plannedVectors stages)).forM (Guarded.runStage guardedWire resolve))
      (stages.forM (Design.runStage wire resolve)) design := by
  induction stages generalizing design with
  | nil =>
      exact Agrees.pure () design planned
  | cons stage rest inductionHypothesis =>
      obtain ⟨layableFirst, layableRest⟩ := List.forall_mem_cons.mp layable
      refine (AgreesAt.runStage agrees planned layableFirst).bind fun _ onward => ?_
      exact inductionHypothesis onward.planned fun other listed =>
        (layableRest other listed).keeps onward.keeps

theorem AgreesAt.outcome
    {guarded plain : Synthesis Unit}
    (agrees : AgreesAt guarded plain design) :
    AgreesAt (Design.outcome guarded) (Design.outcome plain) design := by
  obtain ⟨same, ensured⟩ := agrees
  refine ⟨by rw [outcome_run, outcome_run, same], ?_⟩
  rw [outcome_run]
  cases ran : plain design with
  | ok value later =>
      rw [ran] at ensured
      exact ensured
  | error failure later =>
      rw [ran] at ensured
      simp only
      split <;> exact ensured

theorem agrees_setWiring
    (id : Nat)
    (wiring : Wiring) :
    Agrees (setWiring id wiring) (setWiring id wiring) :=
  fun _ planned => ⟨rfl, .mark planned id wiring⟩

/-- The wiring of a node, guarded and plain. -/
theorem agrees_wireNode
    (depth id : Nat) :
    Agrees (Guarded.wireNode resolve depth id) (wireNode resolve depth id) := by
  induction depth generalizing id with
  | zero =>
      exact .throw _
  | succ depth inductionHypothesis =>
      intro design planned
      refine (Agrees.get design planned).bind fun read _ => ?_
      cases read
      dsimp only
      cases (design.node id).wiring with
      | busy => exact Agrees.pure () design planned
      | done failure? =>
          cases failure? with
          | none => exact Agrees.pure () design planned
          | some failure => exact Agrees.throw failure design planned
      | idle =>
          refine (agrees_setWiring id .busy design planned).bind fun _ started => ?_
          -- The plan was read before the node was marked as busy, and marking keeps its inlets.
          have layable : ∀ stage ∈ (design.node id).kind.stages, Layable design.board stage :=
            fun stage listed tie laid =>
              ⟨planned.inlets ⟨stage, listed, tie, laid, rfl, rfl⟩, NodeKind.source_lt listed laid⟩
          rw [planned.vectors_eq id]
          have stages := AgreesAt.stages inductionHypothesis started.planned fun stage listed =>
            (layable stage listed).keeps started.keeps
          refine stages.outcome.bind ?_
          intro failure? _ _ ended
          refine (agrees_setWiring id _ _ ended.planned).bind fun _ recorded => ?_
          cases failure? with
          | none => exact Agrees.pure () _ recorded.planned
          | some failure => exact Agrees.throw failure _ recorded.planned

theorem agrees_connect
    (id : Nat) :
    Agrees (Guarded.connect resolve id) (connect resolve id) :=
  .bind .get fun _ => .connectWith (agrees_wireNode _) id

/-! ## Designs that were built -/

theorem Grounded.hasPort_of_inlet
    (grounded : design.Grounded)
    {id : Nat}
    {color : Color}
    {point : Endpoint}
    (inlet : (design.node id).kind.Inlet color point) :
    design.board.HasPort point where
  inRange := grounded.bounded (inRange_of_inlet inlet) _ inlet.mem_entities
  isPort := inlet.port_eq ▸ Body.one_mem_ports _

/-- A memory that an addition makes is that of a cell. -/
theorem Addition.describes_of_makes
    {addition : Addition}
    {bank : Bank}
    (makes : addition.Makes design (.memory bank)) :
    ∃ cell, bank.Describes cell := by
  cases addition with
  | memory cell =>
      obtain ⟨made, accepted, isMemory | ⟨index, isPort⟩⟩ := makes
      · cases isMemory
        exact ⟨cell, Bank.describes_of_ofCell accepted⟩
      · cases isPort
  | _ => cases makes

/-- Whatever is done to a design, nothing is missing from it. -/
theorem Builds.planned
    (builds : Builds design later)
    (standing : design.Standing)
    (planned : design.Planned) :
    later.Planned := by
  refine ⟨(builds.standing standing).1.coherent.grounded.hasPort_of_inlet, ?_⟩
  intro id bank isMemory
  cases builds with
  | add addition =>
      rcases addition.kind_cases design id with same | made
      · exact planned.memories (same ▸ isMemory)
      · exact Addition.describes_of_makes (isMemory ▸ made)
  | use names =>
      exact planned.memories isMemory
  | @connect node inRange =>
      -- A wiring adds no nodes but literals.
      have extended : Extends design (after (Design.connect resolve node) design) :=
        after_of_ensures (agrees_connect node design planned).ensured
      exact extended.planned.memories isMemory

theorem Built.planned
    (built : design.Built) :
    design.Planned := by
  induction built with
  | refl =>
      exact ⟨Standing.empty.coherent.grounded.hasPort_of_inlet, fun isMemory => by cases isMemory⟩
  | tail before step inductionHypothesis =>
      exact step.planned (Built.standing before) inductionHypothesis

/-- Connecting a node of a design that was built misses nothing, gives the endpoint of the node, and
fails ordinarily if at all. -/
theorem Built.connect_safe
    (built : design.Built)
    {id : Nat}
    (inRange : id < design.nodes.size) :
    Guarded.connect resolve id design = connect resolve id design ∧
      Ensures (connect resolve id design)
        (fun point _ => point = (design.node id).kind.outlet)
        (fun failure _ => failure.cause.isOrdinary) := by
  have standing := built.standing
  have formed := standing.coherent.formed
  refine ⟨(agrees_connect id design built.planned).run_eq, ?_⟩
  refine (connect_ensures formed inRange standing.quiet).mono ?_ fun _ _ ended => ended.2.1
  rintro point later ⟨passes, -, isOutlet⟩
  rw [isOutlet, (passes.steps.follows formed).grows.kind_eq inRange]

end Design

end CircuitNetwork
