import CircuitNetwork.Synthesis.Design

namespace CircuitNetwork.Design

/-!
# Lazy wiring

A node is wired when its value is first asked for, and wiring it asks for the
values of its inputs. A node that is asked again while it is being wired hands
out its endpoint at once, so feedback loops end. The outcome of a wiring is kept
and given again on later requests; only a wiring that was cut short by a misuse
stays as it is.

Each nested wiring starts a node that was idle, so the number of nodes bounds the
depth of the recursion.
-/

/-- A way to find the producer of a bit vector. -/
abbrev Resolver := List Bit → Synthesis (Option Nat)

/-- A resolver that refuses every request with a remark. -/
def refuseAll (remark : String) : Resolver := fun bits =>
  throw (.ofReason (.remark (remark ++ " " ++ Bit.vectorText bits)))

/-- Label the ordinary failures of an operation. -/
def labelled {α : Type} (label : String) (operation : Synthesis α) : Synthesis α :=
  tryCatch operation fun failure => throw (failure.within label)

/-- The ordinary failure of an operation, if it fails. -/
def outcome (operation : Synthesis Unit) : Synthesis (Option Failure) :=
  tryCatch (operation >>= fun _ => pure none) fun failure =>
    if failure.cause.isOrdinary then pure (some failure) else throw failure

/-- Record the state of a node's wiring. -/
def setWiring (id : Nat) (wiring : Wiring) : Synthesis Unit :=
  modify fun design =>
    { design with nodes := design.nodes.modify id ({ · with wiring := wiring }) }

/-- The node whose inputs must be wired for a node to have its value: for a read port, its memory. -/
def wiredNode (design : Design) (id : Nat) : Nat :=
  match (design.node id).kind with
  | .readPort memory .. => memory
  | _ => id

/-- Wire a node with a given method and return the endpoint that carries its value. -/
def connectWith (wire : Nat → Synthesis Unit) (id : Nat) : Synthesis (Option Endpoint) := do
  wire ((← get).wiredNode id)
  return ((← get).node id).kind.outlet

/-- Find the producer of a bit vector and wire it. It must have an endpoint. -/
def connectInputWith
    (wire : Nat → Synthesis Unit)
    (resolver : Resolver)
    (bits : List Bit) :
    Synthesis (Nat × Endpoint) := do
  match ← resolver bits with
  | none => throw (.ofCrash .nullNode)
  | some id =>
      match ← connectWith wire id with
      | some point => return (id, point)
      | none =>
          throw (.ofFault ⟨.invariantViolation, "resolve " ++ Bit.vectorText bits,
            "node has no output endpoint"⟩)

/-- Answer a request. A clock must come from a primary input. -/
def answer
    (wire : Nat → Synthesis Unit)
    (resolver : Resolver)
    (request : Request) :
    Synthesis Endpoint := do
  let (id, point) ← labelled request.label (connectInputWith wire resolver request.bits)
  if request.fromInput && !((← get).node id).kind.isInput then
    throw (.ofFault ⟨.unsupported, "write clock",
      "clock must be a primary input: derived or gated clocks need an edge detector"⟩)
  return point

/-- Lay a wire from the answer to a request. -/
def tie (sources : List Endpoint) (wire : Tie) : Synthesis Unit :=
  match sources[wire.source]? with
  | some source => modify fun design =>
      { design with board := design.board.wire wire.color [source, wire.sink] }
  | none => pure ()

/-- Answer the requests of a stage, then lay its wires. -/
def runStage
    (wire : Nat → Synthesis Unit)
    (resolver : Resolver)
    (stage : Stage) :
    Synthesis Unit := do
  let sources ← stage.requests.mapM (answer wire resolver)
  stage.ties.forM (tie sources)

/-- Wire a node, unless that was already begun. -/
def wireNode (resolver : Resolver) : Nat → Nat → Synthesis Unit
  | 0, _ => throw (.ofCrash .tooDeep)
  | depth + 1, id => do
      let node := (← get).node id
      match node.wiring with
      | .busy => pure ()
      | .done none => pure ()
      | .done (some failure) => throw failure
      | .idle =>
          setWiring id .busy
          let failure? ← outcome (node.kind.stages.forM (runStage (wireNode resolver depth) resolver))
          setWiring id (.done failure?)
          match failure? with
          | some failure => throw failure
          | none => pure ()

/-- The depth of recursion that no wiring of a design exceeds. -/
def wiringDepth (design : Design) : Nat :=
  design.nodes.size + 1

/-- Wire a node and return the endpoint that carries its value. -/
def connect (resolver : Resolver) (id : Nat) : Synthesis (Option Endpoint) := do
  connectWith (wireNode resolver (← get).wiringDepth) id

/-- Find the producer of a bit vector, wire it, and return it with its endpoint. -/
def connectInput (resolver : Resolver) (bits : List Bit) : Synthesis (Nat × Endpoint) := do
  connectInputWith (wireNode resolver (← get).wiringDepth) resolver bits

end CircuitNetwork.Design
