import CircuitNetwork.Proofs.Synthesis.Run

namespace CircuitNetwork.Design

/-!
# Journals of the lazy wiring

The lazy wiring is repeated here with a journal: a node is noted each time its
own wiring is run. With a journal the wiring does what it does without one, at
any greater depth of recursion, and it notes each node that is begun once. If it
succeeds, no node has failed that had not failed before.
-/

variable {α β : Type}

/-- An operation on a design that keeps a journal of the nodes whose wiring is run. -/
abbrev Journaled := EStateM Failure (Design × List Nat)

namespace Journaled

/-- An operation that runs no wiring. -/
def plain (operation : Synthesis α) : Journaled α := fun (design, journal) =>
  match operation design with
  | .ok value later => .ok value (later, journal)
  | .error failure later => .error failure (later, journal)

/-- Note that the wiring of a node is run. Only identities of nodes that are there count. -/
def note (id : Nat) : Journaled Unit :=
  modify fun (design, journal) =>
    (design, if id < design.nodes.size then journal ++ [id] else journal)

/-- Wire a node with a given method and return the endpoint that carries its value. -/
def connectWith (wire : Nat → Journaled Unit) (id : Nat) : Journaled (Option Endpoint) := do
  wire ((← plain get).wiredNode id)
  return ((← plain get).node id).kind.outlet

/-- Find the producer of a bit vector and wire it. -/
def connectInputWith
    (wire : Nat → Journaled Unit)
    (resolver : Resolver)
    (bits : List Bit) :
    Journaled (Nat × Endpoint) := do
  match ← plain (resolver bits) with
  | none => throw (.ofCrash .nullNode)
  | some id =>
      match ← connectWith wire id with
      | some point => return (id, point)
      | none =>
          throw (.ofFault ⟨.invariantViolation, "resolve " ++ Bit.vectorText bits,
            "node has no output endpoint"⟩)

/-- Label the ordinary failures of an operation. -/
def labelled (label : String) (operation : Journaled α) : Journaled α :=
  tryCatch operation fun failure => throw (failure.within label)

/-- Answer a request. -/
def answer
    (wire : Nat → Journaled Unit)
    (resolver : Resolver)
    (request : Request) :
    Journaled Endpoint := do
  let (id, point) ← labelled request.label (connectInputWith wire resolver request.bits)
  if request.fromInput && !((← plain get).node id).kind.isInput then
    throw (.ofFault ⟨.unsupported, "write clock",
      "clock must be a primary input: derived or gated clocks need an edge detector"⟩)
  return point

/-- Answer the requests of a stage, then lay its wires. -/
def runStage
    (wire : Nat → Journaled Unit)
    (resolver : Resolver)
    (stage : Stage) :
    Journaled Unit := do
  let sources ← stage.requests.mapM (answer wire resolver)
  stage.ties.forM fun wire => plain (tie sources wire)

/-- The ordinary failure of an operation, if it fails. -/
def outcome (operation : Journaled Unit) : Journaled (Option Failure) :=
  tryCatch (operation >>= fun _ => pure none) fun failure =>
    if failure.cause.isOrdinary then pure (some failure) else throw failure

/-- Wire a node, unless that was already begun, and note it. -/
def wireNode (resolver : Resolver) : Nat → Nat → Journaled Unit
  | 0, _ => throw (.ofCrash .tooDeep)
  | depth + 1, id => do
      let node := (← plain get).node id
      match node.wiring with
      | .busy => pure ()
      | .done none => pure ()
      | .done (some failure) => throw failure
      | .idle =>
          note id
          plain (setWiring id .busy)
          let failure? ← outcome (node.kind.stages.forM (runStage (wireNode resolver depth) resolver))
          plain (setWiring id (.done failure?))
          match failure? with
          | some failure => throw failure
          | none => pure ()

/-- Wire a node and return the endpoint that carries its value. -/
def connect (resolver : Resolver) (id : Nat) : Journaled (Option Endpoint) := do
  connectWith (wireNode resolver (← plain get).wiringDepth) id

end Journaled

/-- A journal names the nodes whose wiring was begun, each of them once. -/
structure NotedOnce (state : Design × List Nat) : Prop where
  nodup : state.2.Nodup
  noted : ∀ id, id ∈ state.2 ↔ (state.1.node id).wiring ≠ .idle

/-- Such a journal, with all that another one names. -/
structure NotedOn (journal : List Nat) (state : Design × List Nat) : Prop extends
    NotedOnce state where
  includes : journal ⊆ state.2

/-- No node has failed that had not failed before. -/
def Spares (design later : Design) : Prop :=
  ∀ id failure, (later.node id).wiring = .done (some failure) →
    (design.node id).wiring = .done (some failure)

/-- Nodes whose wiring was begun stay so. -/
def StayBegun (design later : Design) : Prop :=
  ∀ id, (design.node id).wiring ≠ .idle → (later.node id).wiring ≠ .idle

/-- The same nodes have been begun. -/
def SameBegun (design later : Design) : Prop :=
  ∀ id, (later.node id).wiring ≠ .idle ↔ (design.node id).wiring ≠ .idle

/-- In a given state, an operation with a journal does what one without does, unless that one
crashes. -/
def TracksAt
    (operation : Synthesis α)
    (journaled : Journaled α)
    (design : Design)
    (journal : List Nat) :
    Prop :=
  Ensures (operation design)
    (fun value later =>
      Spares design later ∧
        ∃ after,
          journaled (design, journal) = .ok value (later, after) ∧ NotedOn journal (later, after))
    (fun failure later =>
      failure.cause.isOrdinary →
        ∃ after,
          journaled (design, journal) = .error failure (later, after) ∧
            NotedOn journal (later, after))

/-- An operation with a journal does what one without does, unless that one crashes. -/
def Tracks (operation : Synthesis α) (journaled : Journaled α) : Prop :=
  ∀ design journal, NotedOnce (design, journal) → TracksAt operation journaled design journal

theorem NotedOnce.on
    {state : Design × List Nat}
    (kept : NotedOnce state) :
    NotedOn state.2 state :=
  ⟨kept, List.Subset.refl _⟩

theorem NotedOnce.sameBegun
    {design later : Design}
    {journal : List Nat}
    (kept : NotedOnce (design, journal))
    (same : SameBegun design later) :
    NotedOnce (later, journal) :=
  ⟨kept.nodup, fun id => (kept.noted id).trans (same id).symm⟩

theorem NotedOn.trans
    {journal after : List Nat}
    {design : Design}
    {state : Design × List Nat}
    (first : NotedOn journal (design, after))
    (second : NotedOn after state) :
    NotedOn journal state :=
  ⟨second.toNotedOnce, List.Subset.trans first.includes second.includes⟩

/-- Every design has a journal. -/
theorem exists_notedOnce
    (design : Design) :
    ∃ journal, NotedOnce (design, journal) := by
  refine ⟨(List.range design.nodes.size).filter fun id => (design.node id).wiring ≠ .idle,
    List.nodup_range.filter _, fun id => ?_⟩
  simp only [List.mem_filter, List.mem_range, decide_eq_true_eq]
  exact ⟨fun member => member.2, fun begun => ⟨inRange_of_wiring begun, begun⟩⟩

/-- A new literal has not been begun. -/
theorem sameBegun_withLiteral
    (design : Design)
    (bits : List Bit)
    (count : Int32) :
    SameBegun design (design.withLiteral bits count) := by
  intro id
  rw [node_withLiteral]
  split
  · rename_i isNew
    have outside : (design.node id).wiring = .idle := by
      by_contra begun
      exact Nat.ne_of_lt (inRange_of_wiring begun) isNew
    simp [outside]
  · exact Iff.rfl

theorem stayBegun_withLiteral
    (design : Design)
    (bits : List Bit)
    (count : Int32) :
    StayBegun design (design.withLiteral bits count) :=
  fun id => (sameBegun_withLiteral design bits count id).mpr

theorem stayBegun_mark
    (design : Design)
    (id : Nat)
    {wiring : Wiring}
    (begun : wiring ≠ .idle) :
    StayBegun design (design.mark id wiring) := by
  intro other wasBegun
  by_cases same : other = id
  · subst same
    rw [node_mark design (inRange_of_wiring wasBegun), if_pos rfl]
    exact begun
  · rwa [node_mark_of_ne design same]

/-- A node that was begun may be recorded in another state. -/
theorem sameBegun_mark
    {design : Design}
    {id : Nat}
    (wasBegun : (design.node id).wiring ≠ .idle)
    {wiring : Wiring}
    (begun : wiring ≠ .idle) :
    SameBegun design (design.mark id wiring) := by
  intro other
  refine ⟨fun begunLater => ?_, stayBegun_mark design id begun other⟩
  rcases wiring_of_mark begunLater rfl with before | ⟨rfl, -⟩
  · rwa [before]
  · exact wasBegun

theorem Spares.trans
    {design later last : Design}
    (first : Spares design later)
    (second : Spares later last) :
    Spares design last :=
  fun id failure failed => first id failure (second id failure failed)

theorem spares_withLiteral
    (design : Design)
    (bits : List Bit)
    (count : Int32) :
    Spares design (design.withLiteral bits count) := by
  intro id failure failed
  rw [node_withLiteral] at failed
  split at failed
  · cases failed
  · exact failed

theorem spares_mark
    (design : Design)
    (id : Nat)
    {wiring : Wiring}
    (fine : ∀ failure, wiring ≠ .done (some failure)) :
    Spares design (design.mark id wiring) := by
  intro other failure failed
  rcases wiring_of_mark (by simp) failed with before | ⟨-, -, isFailure⟩
  · exact before
  · exact absurd isFailure (fine failure)

namespace Tracks

theorem pure
    (value : α) :
    Tracks (pure value) (pure value) :=
  fun _ journal kept => ⟨fun _ _ failed => failed, journal, rfl, kept.on⟩

theorem throw
    (failure : Failure) :
    Tracks (throw failure : Synthesis α) (throw failure) :=
  fun _ journal kept _ => ⟨journal, rfl, kept.on⟩

theorem bind
    {first : Synthesis α}
    {firstJournaled : Journaled α}
    {next : α → Synthesis β}
    {nextJournaled : α → Journaled β}
    (tracks : Tracks first firstJournaled)
    (nextTracks : ∀ value, Tracks (next value) (nextJournaled value)) :
    Tracks (first >>= next) (firstJournaled >>= nextJournaled) := by
  intro design journal kept
  apply Ensures.bind
  refine (tracks design journal kept).mono ?_ ?_
  · rintro value middle ⟨spares, after, ran, keptOn⟩
    refine (nextTracks value middle after keptOn.toNotedOnce).mono ?_ ?_
    · rintro result later ⟨sparesOn, last, ranOn, keptLast⟩
      refine ⟨spares.trans sparesOn, last, ?_, keptOn.trans keptLast⟩
      rw [bind_of_ok ran, ranOn]
    · intro failure later onward ordinary
      obtain ⟨last, ranOn, keptLast⟩ := onward ordinary
      exact ⟨last, by rw [bind_of_ok ran, ranOn], keptOn.trans keptLast⟩
  · intro failure later failed ordinary
    obtain ⟨after, ran, keptAfter⟩ := failed ordinary
    refine ⟨after, ?_, keptAfter⟩
    simp only [Bind.bind, EStateM.bind, ran]

/-- An operation that begins no node. -/
theorem plain
    {operation : Synthesis α}
    (spares : ∀ design, Ensures (operation design)
      (fun _ later => Spares design later ∧ SameBegun design later)
      (fun _ later => SameBegun design later)) :
    Tracks operation (Journaled.plain operation) := by
  intro design journal kept
  have ensured := spares design
  unfold TracksAt Journaled.plain
  cases ran : operation design with
  | ok value later =>
      rw [ran] at ensured
      exact ⟨ensured.1, journal, by simp only [ran], (kept.sameBegun ensured.2).on⟩
  | error failure later =>
      rw [ran] at ensured
      exact fun _ => ⟨journal, by simp only [ran], (kept.sameBegun ensured).on⟩

theorem get : Tracks (MonadState.get : Synthesis Design) (Journaled.plain MonadState.get) :=
  plain fun _ => ⟨fun _ _ failed => failed, fun _ => Iff.rfl⟩

theorem forM
    {each : α → Synthesis Unit}
    {eachJournaled : α → Journaled Unit}
    (tracks : ∀ item, Tracks (each item) (eachJournaled item))
    (items : List α) :
    Tracks (items.forM each) (items.forM eachJournaled) := by
  induction items with
  | nil =>
      exact .pure ()
  | cons item rest inductionHypothesis =>
      exact .bind (tracks item) fun _ => inductionHypothesis

theorem mapM
    {each : α → Synthesis β}
    {eachJournaled : α → Journaled β}
    (tracks : ∀ item, Tracks (each item) (eachJournaled item))
    (items : List α) :
    Tracks (items.mapM each) (items.mapM eachJournaled) := by
  induction items with
  | nil =>
      exact .pure []
  | cons item rest inductionHypothesis =>
      rw [List.mapM_cons, List.mapM_cons]
      exact .bind (tracks item) fun value => .bind inductionHypothesis fun values => .pure _

theorem labelled
    {operation : Synthesis α}
    {journaled : Journaled α}
    (tracks : Tracks operation journaled)
    (label : String) :
    Tracks (Design.labelled label operation) (Journaled.labelled label journaled) := by
  intro design journal kept
  apply labelled_ensures
  refine (tracks design journal kept).mono ?_ ?_
  · rintro value later ⟨spares, after, ran, keptAfter⟩
    refine ⟨spares, after, ?_, keptAfter⟩
    simp only [Journaled.labelled, tryCatch, tryCatchThe, MonadExceptOf.tryCatch, EStateM.tryCatch,
      ran]
  · intro failure later failed ordinary
    rw [isOrdinary_within] at ordinary
    obtain ⟨after, ran, keptAfter⟩ := failed ordinary
    refine ⟨after, ?_, keptAfter⟩
    simp only [Journaled.labelled, tryCatch, tryCatchThe, MonadExceptOf.tryCatch, EStateM.tryCatch,
      ran]
    rfl

/-! ## The parts of a wiring -/

theorem resolve
    (bits : List Bit) :
    Tracks (Design.resolve bits) (Journaled.plain (Design.resolve bits)) := by
  refine plain fun design => ?_
  have stay : Spares design design ∧ SameBegun design design :=
    ⟨fun _ _ failed => failed, fun _ => Iff.rfl⟩
  rw [resolve_run]
  cases design.table.find? bits with
  | some node => exact stay
  | none =>
      by_cases constant : bits.all (·.isConst)
      · simp only [constant, ↓reduceIte]
        cases literalCount bits with
        | ok count =>
            exact ⟨spares_withLiteral design bits count, sameBegun_withLiteral design bits count⟩
        | error failure => exact stay.2
      · simp only [constant]
        exact stay.2

theorem tie
    (sources : List Endpoint)
    (wire : Tie) :
    Tracks (Design.tie sources wire) (Journaled.plain (Design.tie sources wire)) := by
  refine plain fun design => ?_
  have stay : Spares design design ∧ SameBegun design design :=
    ⟨fun _ _ failed => failed, fun _ => Iff.rfl⟩
  unfold Design.tie
  cases sources[wire.source]? <;> exact stay

variable {wire : Nat → Synthesis Unit} {wireJournaled : Nat → Journaled Unit}

theorem connectWith
    (tracks : ∀ id, Tracks (wire id) (wireJournaled id))
    (id : Nat) :
    Tracks (Design.connectWith wire id) (Journaled.connectWith wireJournaled id) :=
  .bind .get fun _ => .bind (tracks _) fun _ => .bind .get fun _ => .pure _

theorem connectInputWith
    (tracks : ∀ id, Tracks (wire id) (wireJournaled id))
    (bits : List Bit) :
    Tracks (Design.connectInputWith wire Design.resolve bits)
      (Journaled.connectInputWith wireJournaled Design.resolve bits) := by
  refine .bind (.resolve bits) fun node => ?_
  cases node with
  | none => exact .throw _
  | some id =>
      refine .bind (.connectWith tracks id) fun point => ?_
      cases point with
      | none => exact .throw _
      | some point => exact .pure _

theorem answer
    (tracks : ∀ id, Tracks (wire id) (wireJournaled id))
    (request : Request) :
    Tracks (Design.answer wire Design.resolve request)
      (Journaled.answer wireJournaled Design.resolve request) := by
  refine .bind (.labelled (.connectInputWith tracks request.bits) request.label) ?_
  rintro ⟨id, point⟩
  refine .bind .get fun design => ?_
  split
  · exact .throw _
  · exact .pure _

theorem runStage
    (tracks : ∀ id, Tracks (wire id) (wireJournaled id))
    (stage : Stage) :
    Tracks (Design.runStage wire Design.resolve stage)
      (Journaled.runStage wireJournaled Design.resolve stage) :=
  .bind (.mapM (.answer tracks) stage.requests) fun sources => .forM (.tie sources) stage.ties

end Tracks

/-- An idle node may be noted as it is begun. -/
theorem NotedOnce.note
    {design : Design}
    {journal : List Nat}
    (kept : NotedOnce (design, journal))
    {id : Nat}
    (inRange : id < design.nodes.size)
    (idle : (design.node id).wiring = .idle) :
    NotedOnce (design.mark id .busy, journal ++ [id]) := by
  refine ⟨?_, fun other => ?_⟩
  · refine List.Nodup.append kept.nodup (by simp) ?_
    rintro other inJournal isNew
    obtain rfl := List.mem_singleton.mp isNew
    exact (kept.noted other).mp inJournal idle
  · rw [List.mem_append, List.mem_singleton, node_mark design inRange]
    by_cases same : other = id
    · simp [same]
    · simpa [same] using kept.noted other

theorem Journaled.outcome_run
    (operation : Journaled Unit)
    (state : Design × List Nat) :
    outcome operation state =
      match operation state with
      | .ok _ later => .ok none later
      | .error failure later =>
          if failure.cause.isOrdinary then .ok (some failure) later
          else .error failure later := by
  simp only [outcome, tryCatch, tryCatchThe, MonadExceptOf.tryCatch, EStateM.tryCatch, bind,
    EStateM.bind]
  cases operation state with
  | ok value later => rfl
  | error failure later =>
      simp only
      split <;> rfl

theorem Journaled.plain_setWiring
    (id : Nat)
    (wiring : Wiring)
    (design : Design)
    (journal : List Nat) :
    plain (setWiring id wiring) (design, journal) = .ok () (design.mark id wiring, journal) :=
  rfl

/-- Recording how the wiring of a node that was begun ended is tracked if the wiring is. -/
theorem tracksAt_record
    {wiring : Synthesis Unit}
    {journaled : Journaled Unit}
    (tracks : Tracks wiring journaled)
    {id : Nat}
    {design : Design}
    {journal : List Nat}
    (kept : NotedOnce (design, journal))
    (member : id ∈ journal) :
    TracksAt
      (do
        let failure? ← outcome wiring
        setWiring id (.done failure?)
        match failure? with
        | some failure => throw failure
        | none => pure ())
      (do
        let failure? ← Journaled.outcome journaled
        Journaled.plain (setWiring id (.done failure?))
        match failure? with
        | some failure => throw failure
        | none => pure ())
      design journal := by
  have tracked := tracks design journal kept
  have ended := outcome_run wiring design
  have journalEnded := Journaled.outcome_run journaled (design, journal)
  have recorded {later : Design} {after : List Nat} {failure? : Option Failure}
      (keptAfter : NotedOn journal (later, after)) :
      NotedOn journal (later.mark id (.done failure?), after) := by
    have begun := (keptAfter.noted id).mp (keptAfter.includes member)
    exact ⟨keptAfter.sameBegun (sameBegun_mark begun (by simp)), keptAfter.includes⟩
  rw [TracksAt] at tracked ⊢
  cases ran : wiring design with
  | ok value later =>
      rw [ran] at tracked ended
      obtain ⟨spares, after, journalRan, keptAfter⟩ := tracked
      rw [journalRan] at journalEnded
      rw [bind_of_ok ended, bind_of_ok (setWiring_run _ _ _), bind_of_ok journalEnded,
        bind_of_ok (Journaled.plain_setWiring _ _ _ _)]
      exact ⟨spares.trans (spares_mark later id (by simp)), after, rfl, recorded keptAfter⟩
  | error failure later =>
      rw [ran] at tracked ended
      by_cases ordinary : failure.cause.isOrdinary
      · obtain ⟨after, journalRan, keptAfter⟩ := tracked ordinary
        rw [journalRan] at journalEnded
        simp only [ordinary, if_true] at ended journalEnded
        rw [bind_of_ok ended, bind_of_ok (setWiring_run _ _ _), bind_of_ok journalEnded,
          bind_of_ok (Journaled.plain_setWiring _ _ _ _)]
        exact fun _ => ⟨after, rfl, recorded keptAfter⟩
      · simp only [ordinary] at ended
        simp only [Bind.bind, EStateM.bind, ended]
        exact fun isOrdinary => absurd isOrdinary ordinary

/-- There is nothing to record of a node that is not there. -/
theorem mark_of_outside
    {design : Design}
    {id : Nat}
    (outside : ¬id < design.nodes.size)
    (wiring : Wiring) :
    design.mark id wiring = design := by
  have same : design.nodes.modify id ({ · with wiring := wiring }) = design.nodes := by
    refine Array.ext_getElem? fun index => ?_
    rw [Array.getElem?_modify]
    split
    · rename_i isIndex
      simp [← isIndex, outside]
    · rfl
  rw [mark, same]

/-- The wiring of a node is tracked at any greater depth of recursion. -/
theorem tracks_wireNode
    {depth deeper : Nat}
    (le : depth ≤ deeper)
    (id : Nat) :
    Tracks (wireNode resolve depth id) (Journaled.wireNode resolve deeper id) := by
  induction depth generalizing deeper id with
  | zero =>
      intro design journal kept ordinary
      cases ordinary
  | succ depth inductionHypothesis =>
      obtain ⟨deeper, rfl⟩ : ∃ below, deeper = below + 1 := ⟨deeper - 1, by omega⟩
      have stages (stages : List Stage) := Tracks.forM
        (.runStage fun id => inductionHypothesis (Nat.le_of_succ_le_succ le) id) stages
      intro design journal kept
      have journalRead : Journaled.plain get (design, journal) = .ok design (design, journal) := rfl
      rw [TracksAt, wireNode, bind_of_ok (get_run design), Journaled.wireNode,
        bind_of_ok journalRead]
      have same : Spares design design := fun _ _ failed => failed
      cases wiring : (design.node id).wiring with
      | busy => exact ⟨same, journal, rfl, kept.on⟩
      | done outcome =>
          cases outcome with
          | none => exact ⟨same, journal, rfl, kept.on⟩
          | some failure => exact fun _ => ⟨journal, rfl, kept.on⟩
      | idle =>
          have noted : Journaled.note id (design, journal) =
              .ok () (design, if id < design.nodes.size then journal ++ [id] else journal) := rfl
          simp only
          rw [bind_of_ok (setWiring_run design id .busy), bind_of_ok noted,
            bind_of_ok (Journaled.plain_setWiring _ _ _ _)]
          by_cases inRange : id < design.nodes.size
          · -- The node is noted in the state in which it is still idle, so it was not noted before.
            have all {state : Design × List Nat} (keptAfter : NotedOn (journal ++ [id]) state) :
                NotedOn journal state :=
              ⟨keptAfter.toNotedOnce,
                List.Subset.trans (List.subset_append_left _ _) keptAfter.includes⟩
            rw [if_pos inRange]
            refine (tracksAt_record (stages _) (kept.note inRange wiring) (by simp)).mono ?_ ?_
            · rintro value later ⟨spares, after, ran, keptAfter⟩
              exact ⟨(spares_mark design id (by simp)).trans spares, after, ran, all keptAfter⟩
            · intro failure later failed ordinary
              obtain ⟨after, ran, keptAfter⟩ := failed ordinary
              exact ⟨after, ran, all keptAfter⟩
          · have ended (wire : Nat → Synthesis Unit) : outcome
                (([] : List Stage).forM (runStage wire resolve)) design = .ok none design := rfl
            have journalEnded (wire : Nat → Journaled Unit) : Journaled.outcome
                (([] : List Stage).forM (Journaled.runStage wire resolve)) (design, journal) =
                  .ok none (design, journal) := rfl
            rw [if_neg inRange, stages_of_outside inRange, mark_of_outside inRange,
              bind_of_ok (ended _), bind_of_ok (setWiring_run _ _ _), bind_of_ok (journalEnded _),
              bind_of_ok (Journaled.plain_setWiring _ _ _ _), mark_of_outside inRange]
            exact ⟨same, journal, rfl, kept.on⟩

theorem tracks_connect
    (id : Nat) :
    Tracks (connect resolve id) (Journaled.connect resolve id) :=
  .bind .get fun _ => .connectWith (fun id => tracks_wireNode (Nat.le_refl _) id) id

end CircuitNetwork.Design
