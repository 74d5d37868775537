import CircuitNetwork.Proofs.Synthesis.Wiring

namespace CircuitNetwork.Design

/-!
# The lazy wiring takes only elementary steps

The induction is on the depth of the recursion. While a node is being wired, all
nodes that are being wired lead to it through requests, and there are fewer
nodes left to begin than levels of recursion. So the recursion never runs too
deep, and a failure is always the answer to a request that cannot be met.
-/

open Relation

variable {design later : Design}

/-- A sequence of steps after which the same nodes are being wired as before. -/
structure Passes (design later : Design) : Prop where
  steps : Advances design later
  busy : SameBusy design later

namespace Passes

theorem refl (design : Design) : Passes design design :=
  ⟨.refl, fun _ => Iff.rfl⟩

theorem trans
    {last : Design}
    (first : Passes design later)
    (second : Passes later last) :
    Passes design last :=
  ⟨first.steps.trans second.steps, fun id => (second.busy id).trans (first.busy id)⟩

theorem underway
    (formed : design.Formed)
    (passes : Passes design later)
    {id : Nat}
    (begun : design.Underway id) :
    later.Underway id := by
  rcases begun with busy | done
  · exact .inl ((passes.busy id).mpr busy)
  · exact .inr ((passes.steps.follows formed).done_eq done)

end Passes

/-- A node is being wired, with some levels of recursion left. -/
structure Working (design : Design) (id depth : Nat) : Prop where
  formed : design.Formed
  busy : (design.node id).wiring = .busy
  above : ∀ other, (design.node other).wiring = .busy → ReflTransGen design.Refers other id
  deep : design.openNodes.card < depth

theorem Working.passes
    {id depth : Nat}
    (working : design.Working id depth)
    (passes : Passes design later) :
    later.Working id depth := by
  have follows := passes.steps.follows working.formed
  refine ⟨follows.formed, (passes.busy id).mpr working.busy, ?_, ?_⟩
  · intro other busy
    have path := working.above other ((passes.busy other).mp busy)
    exact ReflTransGen.mono (fun _ _ refers => follows.grows.refers working.formed refers) _ _ path
  · exact Nat.lt_of_le_of_lt (Finset.card_le_card follows.open_subset) working.deep

/-- A request was answered with an endpoint. -/
def Answered (design : Design) (request : Request) (point : Endpoint) : Prop :=
  ∃ producer,
    design.Resolves request producer point ∧ design.Underway (design.wiredNode producer)

theorem Answered.passes
    (formed : design.Formed)
    (passes : Passes design later)
    {request : Request}
    {point : Endpoint}
    (answered : design.Answered request point) :
    later.Answered request point := by
  obtain ⟨producer, resolved, underway⟩ := answered
  have grows := (passes.steps.follows formed).grows
  refine ⟨producer, grows.resolves formed resolved, ?_⟩
  rw [grows.wiredNode_eq (formed.registered resolved.1)]
  exact passes.underway formed underway

theorem literalCount_error
    {bits : List Bit}
    {failure : Failure}
    (refused : literalCount bits = .error failure) :
    failure.cause.isOrdinary := by
  unfold literalCount at refused
  split at refused
  · cases refused
    rfl
  · split at refused <;> cases refused
    rfl

theorem resolve_run
    (design : Design)
    (bits : List Bit) :
    resolve bits design =
      match design.table.find? bits with
      | some node => .ok node design
      | none =>
          if bits.all (·.isConst) then
            match literalCount bits with
            | .ok count => .ok (some design.nodes.size) (design.withLiteral bits count)
            | .error failure => .error failure design
          else
            .error (.ofReason (.noProducer bits)) design := by
  rw [resolve, bind_of_ok (get_run design)]
  cases design.table.find? bits with
  | some node =>
      rfl
  | none =>
      by_cases constant : bits.all (·.isConst)
      · simp only [constant, ↓reduceIte]
        cases counted : literalCount bits with
        | ok count =>
            have added : addLiteral bits design =
                .ok design.nodes.size
                  (design.push ⟨[.ofCount count], []⟩ (.literal design.board.size)) := by
              rw [addLiteral, counted]
              rfl
            rw [bind_of_ok added, bind_of_ok (register_run _ _ _)]
            rfl
        | error failure =>
            have refused : addLiteral bits design = .error failure design := by
              rw [addLiteral, counted]
              rfl
            simp only [bind, EStateM.bind, refused]
      · simp only [constant]
        rfl

/-- A vector is resolved to a producer, or there is none and none can be made. -/
theorem resolve_ensures
    {id depth : Nat}
    (working : design.Working id depth)
    {request : Request}
    (asked : design.Requests id request) :
    Ensures (resolve request.bits design)
      (fun node later =>
        Passes design later ∧
          ∃ producer, node = some producer ∧
            later.table.find? request.bits = some (some producer))
      (fun failure later =>
        Passes design later ∧ failure.cause.isOrdinary ∧
          later.table.find? request.bits = none ∧ ¬later.Makeable request.bits) := by
  rw [resolve_run]
  cases found : design.table.find? request.bits with
  | some node =>
      cases node with
      | none => exact absurd found working.formed.known
      | some producer => exact ⟨Passes.refl design, producer, rfl, found⟩
  | none =>
      by_cases constant : request.bits.all (·.isConst)
      · simp only [constant, ↓reduceIte]
        cases counted : literalCount request.bits with
        | ok count =>
            have step : Advance design (design.withLiteral request.bits count) :=
              .literal working.busy asked found constant counted
            refine ⟨⟨.single step, ?_⟩, design.nodes.size, rfl, ?_⟩
            · intro other
              rw [node_withLiteral]
              split
              · rename_i same
                have unused : (design.node other).wiring = .idle := by
                  by_contra begun
                  exact absurd (inRange_of_wiring begun) (by omega)
                simp [unused]
              · rfl
            · simp [withLiteral, enter, Table.find?_add]
        | error failure =>
            refine ⟨Passes.refl design, literalCount_error counted, found, ?_⟩
            rintro ⟨-, -, count, makeable⟩
            rw [counted] at makeable
            cases makeable
      · simp only [constant]
        exact ⟨Passes.refl design, rfl, found, fun makeable => constant makeable.2.1⟩

/-- What wiring a node within some levels of recursion leaves. -/
def WiresWithin (depth : Nat) : Prop :=
  ∀ (design : Design) (id : Nat),
    design.Formed →
      id < design.nodes.size →
        (∀ other, (design.node other).wiring = .busy → TransGen design.Refers other id) →
          design.openNodes.card < depth →
            Ensures (wireNode resolve depth id design)
              (fun _ later => Passes design later ∧ later.Underway id)
              (fun failure later =>
                Passes design later ∧ failure.cause.isOrdinary ∧
                  (later.node id).wiring = .done (some failure))

theorem connectWith_ensures
    {wire : Nat → Synthesis Unit}
    {id : Nat}
    {succeeded : Option Endpoint → Design → Prop}
    {failed : Failure → Design → Prop}
    (ensured :
      Ensures (wire (design.wiredNode id) design)
        (fun _ later => succeeded (later.node id).kind.outlet later) failed) :
    Ensures (connectWith wire id design) succeeded failed := by
  rw [connectWith, bind_of_ok (get_run design)]
  exact Ensures.bind ensured

theorem connectInputWith_ensures
    {id depth : Nat}
    (wires : WiresWithin depth)
    (working : design.Working id depth)
    {request : Request}
    (asked : design.Requests id request) :
    Ensures (connectInputWith (wireNode resolve depth) resolve request.bits design)
      (fun answer later =>
        Passes design later ∧
          later.table.find? request.bits = some (some answer.1) ∧
          (later.node answer.1).kind.outlet = some answer.2 ∧
          later.Underway (later.wiredNode answer.1))
      (fun failure later =>
        Passes design later ∧ failure.cause.isOrdinary ∧ ¬later.Answerable request) := by
  apply Ensures.bind
  refine (resolve_ensures working asked).mono ?_ ?_
  · rintro node middle ⟨passes, producer, rfl, found⟩
    have workingOn := working.passes passes
    have inRange := workingOn.formed.registered found
    have refers : middle.Refers id (middle.wiredNode producer) :=
      ⟨request, producer, ((passes.steps.follows working.formed).grows.requests_iff
        asked.inRange).mpr asked, found, rfl⟩
    apply Ensures.bind
    apply connectWith_ensures
    refine (wires middle (middle.wiredNode producer) workingOn.formed
      (workingOn.formed.wiredNode_lt inRange) ?_ workingOn.deep).mono ?_ ?_
    · intro other busy
      exact TransGen.tail' (workingOn.above other busy) refers
    · rintro _ later ⟨passesOn, underway⟩
      have grows := (passesOn.steps.follows workingOn.formed).grows
      have stillFound := grows.find?_eq found
      rw [← grows.wiredNode_eq inRange] at underway
      cases outlet : (later.node producer).kind.outlet with
      | some point =>
          exact ⟨passes.trans passesOn, stillFound, outlet, underway⟩
      | none =>
          refine ⟨passes.trans passesOn, rfl, ?_⟩
          rintro (⟨other, point, ⟨otherFound, otherOutlet, -⟩, -⟩ | makeable)
          case inr => exact not_makeable stillFound makeable
          rw [stillFound] at otherFound
          cases otherFound
          rw [outlet] at otherOutlet
          cases otherOutlet
    · rintro failure later ⟨passesOn, ordinary, failed⟩
      have grows := (passesOn.steps.follows workingOn.formed).grows
      refine ⟨passes.trans passesOn, ordinary, ?_⟩
      rintro (⟨other, point, ⟨otherFound, -⟩, notFailed⟩ | makeable)
      case inr => exact not_makeable (grows.find?_eq found) makeable
      rw [grows.find?_eq found] at otherFound
      cases otherFound
      rw [grows.wiredNode_eq inRange] at notFailed
      exact notFailed failure failed
  · rintro failure later ⟨passes, ordinary, missing, unmakeable⟩
    refine ⟨passes, ordinary, ?_⟩
    rintro (⟨producer, point, ⟨found, -⟩, -⟩ | makeable)
    · rw [missing] at found
      cases found
    · exact unmakeable makeable

theorem isOrdinary_within
    (label : String)
    (failure : Failure) :
    (failure.within label).cause.isOrdinary = failure.cause.isOrdinary := by
  unfold Failure.within
  split <;> rfl

theorem labelled_ensures
    {α : Type}
    {label : String}
    {operation : Synthesis α}
    {succeeded : α → Design → Prop}
    {failed : Failure → Design → Prop}
    (ensured :
      Ensures (operation design) succeeded
        (fun failure later => failed (failure.within label) later)) :
    Ensures (labelled label operation design) succeeded failed := by
  have unfolded : labelled label operation design =
      match operation design with
      | .ok value later => .ok value later
      | .error failure later => .error (failure.within label) later := by
    simp only [labelled, tryCatch, tryCatchThe, MonadExceptOf.tryCatch, EStateM.tryCatch]
    cases operation design <;> rfl
  rw [unfolded]
  cases result : operation design with
  | ok value later =>
      rw [result] at ensured
      exact ensured
  | error failure later =>
      rw [result] at ensured
      exact ensured

/-- A request is answered with the endpoint of its producer, or it cannot be met. -/
theorem answer_ensures
    {id depth : Nat}
    (wires : WiresWithin depth)
    (working : design.Working id depth)
    {request : Request}
    (asked : design.Requests id request) :
    Ensures (answer (wireNode resolve depth) resolve request design)
      (fun point later => Passes design later ∧ later.Answered request point)
      (fun failure later =>
        Passes design later ∧ failure.cause.isOrdinary ∧ ¬later.Answerable request) := by
  apply Ensures.bind
  apply labelled_ensures
  refine (connectInputWith_ensures wires working asked).mono ?_ ?_
  · rintro ⟨producer, point⟩ later ⟨passes, found, outlet, underway⟩
    simp only [bind_of_ok (get_run later)]
    by_cases wrongKind : request.fromInput && !(later.node producer).kind.isInput
    · simp only [wrongKind, ↓reduceIte]
      refine ⟨passes, rfl, ?_⟩
      rintro (⟨other, otherPoint, ⟨otherFound, -, isInput⟩, -⟩ | makeable)
      case inr => exact not_makeable found makeable
      rw [found] at otherFound
      cases otherFound
      simp only [Bool.and_eq_true, Bool.not_eq_true'] at wrongKind
      rw [isInput wrongKind.1] at wrongKind
      cases wrongKind.2
    · simp only [wrongKind]
      refine ⟨passes, producer, ⟨found, outlet, ?_⟩, underway⟩
      intro fromInput
      simpa [fromInput] using wrongKind
  · rintro failure later ⟨passes, ordinary, unmet⟩
    exact ⟨passes, by rw [isOrdinary_within, ordinary], unmet⟩

theorem Resolves.unique
    {request : Request}
    {producer other : Nat}
    {point otherPoint : Endpoint}
    (resolved : design.Resolves request producer point)
    (otherResolved : design.Resolves request other otherPoint) :
    producer = other ∧ point = otherPoint := by
  obtain ⟨found, outlet, -⟩ := resolved
  obtain ⟨otherFound, otherOutlet, -⟩ := otherResolved
  rw [found] at otherFound
  cases otherFound
  rw [outlet] at otherOutlet
  exact ⟨rfl, Option.some.inj otherOutlet⟩

theorem Carries.mono
    {board other : Board}
    (joined :
      ∀ {color first second},
        board.Joined color first second → other.Joined color first second)
    {wire : Color × List Endpoint}
    (carries : Carries board wire) :
    Carries other wire :=
  fun first firstMember second secondMember =>
    joined (carries first firstMember second secondMember)

/-- The requests of a stage are answered one after another. -/
theorem answers_ensures
    {id depth : Nat}
    (wires : WiresWithin depth)
    (working : design.Working id depth)
    (requests : List Request)
    (asked : ∀ request ∈ requests, design.Requests id request) :
    Ensures (requests.mapM (answer (wireNode resolve depth) resolve) design)
      (fun points later =>
        Passes design later ∧ List.Forall₂ later.Answered requests points)
      (fun failure later =>
        Passes design later ∧ failure.cause.isOrdinary ∧
          ∃ request, later.Requests id request ∧ ¬later.Answerable request) := by
  induction requests generalizing design with
  | nil =>
      exact ⟨Passes.refl design, .nil⟩
  | cons request rest inductionHypothesis =>
      rw [List.mapM_cons]
      apply Ensures.bind
      have firstAsked := asked request (by simp)
      refine (answer_ensures wires working firstAsked).mono ?_ ?_
      · rintro point middle ⟨passes, answered⟩
        have grows := (passes.steps.follows working.formed).grows
        have workingOn := working.passes passes
        apply Ensures.bind
        refine (inductionHypothesis workingOn ?_).mono ?_ ?_
        · intro other member
          exact (grows.requests_iff firstAsked.inRange).mpr (asked other (by simp [member]))
        · rintro points later ⟨passesOn, restAnswered⟩
          exact ⟨passes.trans passesOn,
            .cons (answered.passes workingOn.formed passesOn) restAnswered⟩
        · rintro failure later ⟨passesOn, ordinary, unmet⟩
          exact ⟨passes.trans passesOn, ordinary, unmet⟩
      · rintro failure later ⟨passes, ordinary, unmet⟩
        have grows := (passes.steps.follows working.formed).grows
        exact ⟨passes, ordinary, request,
          (grows.requests_iff firstAsked.inRange).mpr firstAsked, unmet⟩

/-- The requests of a stage are answered, and the wires from the answers laid. -/
structure StageDone (design : Design) (stage : Stage) : Prop where
  answered : ∀ request ∈ stage.requests, ∃ point, design.Answered request point
  carried :
    ∀ tie ∈ stage.ties, ∀ request point,
      stage.requests[tie.source]? = some request →
        design.Answered request point →
          Carries design.board (tie.color, [point, tie.sink])

theorem StageDone.passes
    (formed : design.Formed)
    (passes : Passes design later)
    {stage : Stage}
    (done : design.StageDone stage) :
    later.StageDone stage where
  answered request member := by
    obtain ⟨point, answered⟩ := done.answered request member
    exact ⟨point, answered.passes formed passes⟩
  carried tie member request point asked answered := by
    obtain ⟨before, answeredBefore⟩ := done.answered request (List.mem_of_getElem? asked)
    have carries := done.carried tie member request before asked answeredBefore
    obtain ⟨_, resolved, -⟩ := answered
    obtain ⟨_, stillResolved, -⟩ := answeredBefore.passes formed passes
    rw [← (stillResolved.unique resolved).2]
    exact carries.mono (passes.steps.follows formed).joined

theorem carries_wire
    {board : Board}
    (tidy : board.Tidy)
    (color : Color)
    (points : List Endpoint) :
    Carries (board.wire color points) (color, points) := by
  intro first firstMember second secondMember
  rw [tidy.joined_wire_iff]
  exact .inr ⟨rfl, ⟨first, firstMember, .inl rfl⟩, ⟨second, secondMember, .inl rfl⟩⟩

/-- Laying a wire of a stage is a step, if there is an answer to lay it from. -/
theorem tie_run
    {id depth : Nat}
    (working : design.Working id depth)
    {stage : Stage}
    (planned : stage ∈ (design.node id).kind.stages)
    {points : List Endpoint}
    (answered : List.Forall₂ design.Answered stage.requests points)
    {first : Tie}
    (included : first ∈ stage.ties) :
    ∃ later, tie points first design = .ok () later ∧ Passes design later ∧
      ∀ point, points[first.source]? = some point →
        Carries later.board (first.color, [point, first.sink]) := by
  cases source : points[first.source]? with
  | none =>
      exact ⟨design, by simp [tie, source], Passes.refl design, by simp⟩
  | some point =>
      obtain ⟨inRange, rfl⟩ := List.getElem?_eq_some_iff.mp source
      have sameLength := answered.length_eq
      obtain ⟨producer, resolved, -⟩ :=
        answered.get (by omega : first.source < stage.requests.length) inRange
      let wire := (first.color, [points[first.source], first.sink])
      have supply : design.Supply id wire :=
        .tie planned included (List.getElem?_eq_getElem (by omega)) resolved
      refine ⟨{ design with board := design.board.wire wire.1 wire.2 }, ?_,
        ⟨.single (.lay working.busy supply), ?_⟩, ?_⟩
      · simp only [tie, source]
        rfl
      · exact fun _ => Iff.rfl
      · rintro _ ⟨rfl⟩
        exact carries_wire working.formed.tidy _ _

/-- The wires of a stage are laid one after another. -/
theorem ties_ensures
    {id depth : Nat}
    (working : design.Working id depth)
    {stage : Stage}
    (planned : stage ∈ (design.node id).kind.stages)
    {points : List Endpoint}
    (answered : List.Forall₂ design.Answered stage.requests points)
    (ties : List Tie)
    (included : ∀ tie ∈ ties, tie ∈ stage.ties) :
    Ensures (ties.forM (tie points) design)
      (fun _ later =>
        Passes design later ∧
          ∀ tie ∈ ties, ∀ point, points[tie.source]? = some point →
            Carries later.board (tie.color, [point, tie.sink]))
      (fun _ _ => False) := by
  induction ties generalizing design with
  | nil =>
      exact ⟨Passes.refl design, by simp⟩
  | cons first rest inductionHypothesis =>
      obtain ⟨middle, ran, passes, carries⟩ :=
        tie_run working planned answered (included first (by simp))
      show Ensures ((tie points first >>= fun _ => rest.forM (tie points)) design) _ _
      rw [bind_of_ok ran]
      have follows := passes.steps.follows working.formed
      rw [← follows.grows.kind_eq (inRange_of_wiring (by simp [working.busy]))] at planned
      refine (inductionHypothesis (working.passes passes) planned
        (answered.imp fun _ _ => Answered.passes working.formed passes)
        (fun tie member => included tie (by simp [member]))).mono ?_ ?_
      · rintro _ later ⟨passesOn, restCarried⟩
        refine ⟨passes.trans passesOn, ?_⟩
        intro tie member point source
        rcases List.mem_cons.mp member with rfl | inRest
        · exact (carries point source).mono (passesOn.steps.follows follows.formed).joined
        · exact restCarried tie inRest point source
      · exact fun _ _ impossible => impossible

theorem answerAt
    {requests : List Request}
    {points : List Endpoint}
    (answered : List.Forall₂ design.Answered requests points)
    {index : Nat}
    {request : Request}
    (asked : requests[index]? = some request) :
    ∃ point, points[index]? = some point ∧ design.Answered request point := by
  obtain ⟨inRange, rfl⟩ := List.getElem?_eq_some_iff.mp asked
  have pointInRange : index < points.length := answered.length_eq ▸ inRange
  exact ⟨points[index], List.getElem?_eq_getElem pointInRange, answered.get inRange pointInRange⟩

theorem runStage_ensures
    {id depth : Nat}
    (wires : WiresWithin depth)
    (working : design.Working id depth)
    {stage : Stage}
    (planned : stage ∈ (design.node id).kind.stages) :
    Ensures (runStage (wireNode resolve depth) resolve stage design)
      (fun _ later => Passes design later ∧ later.StageDone stage)
      (fun failure later =>
        Passes design later ∧ failure.cause.isOrdinary ∧
          ∃ request, later.Requests id request ∧ ¬later.Answerable request) := by
  apply Ensures.bind
  refine (answers_ensures wires working stage.requests
    (fun request member => ⟨stage, planned, member⟩)).mono ?_ ?_
  · rintro points middle ⟨passes, answered⟩
    have workingOn := working.passes passes
    rw [← (passes.steps.follows working.formed).grows.kind_eq
      (inRange_of_wiring (by simp [working.busy]))] at planned
    refine (ties_ensures workingOn planned answered stage.ties (fun _ member => member)).mono
      ?_ ?_
    · rintro _ later ⟨passesOn, carried⟩
      have answeredLater := answered.imp fun _ _ => Answered.passes workingOn.formed passesOn
      refine ⟨passes.trans passesOn, ?_, ?_⟩
      · intro request member
        obtain ⟨index, asked⟩ := List.getElem?_of_mem member
        obtain ⟨point, -, answer⟩ := answerAt answeredLater asked
        exact ⟨point, answer⟩
      · intro tie member request point asked ⟨_, resolved, _⟩
        obtain ⟨source, found, _, sourceResolved, -⟩ := answerAt answeredLater asked
        rw [← (sourceResolved.unique resolved).2]
        exact carried tie member source found
    · exact fun _ _ impossible => impossible.elim
  · exact fun _ _ unmet => unmet

/-- The stages of a node are run one after another. -/
theorem stages_ensures
    {id depth : Nat}
    (wires : WiresWithin depth)
    (working : design.Working id depth)
    (stages : List Stage)
    (included : ∀ stage ∈ stages, stage ∈ (design.node id).kind.stages) :
    Ensures (stages.forM (runStage (wireNode resolve depth) resolve) design)
      (fun _ later => Passes design later ∧ ∀ stage ∈ stages, later.StageDone stage)
      (fun failure later =>
        Passes design later ∧ failure.cause.isOrdinary ∧
          ∃ request, later.Requests id request ∧ ¬later.Answerable request) := by
  induction stages generalizing design with
  | nil =>
      exact ⟨Passes.refl design, by simp⟩
  | cons stage rest inductionHypothesis =>
      apply Ensures.bind
      refine (runStage_ensures wires working (included stage (by simp))).mono ?_ ?_
      · rintro _ middle ⟨passes, done⟩
        have follows := passes.steps.follows working.formed
        have workingOn := working.passes passes
        refine (inductionHypothesis workingOn ?_).mono ?_ ?_
        · intro other member
          rw [follows.grows.kind_eq (inRange_of_wiring (by simp [working.busy]))]
          exact included other (by simp [member])
        · rintro _ later ⟨passesOn, restDone⟩
          refine ⟨passes.trans passesOn, ?_⟩
          intro other member
          rcases List.mem_cons.mp member with rfl | inRest
          · exact done.passes workingOn.formed passesOn
          · exact restDone other inRest
        · rintro failure later ⟨passesOn, ordinary, unmet⟩
          exact ⟨passes.trans passesOn, ordinary, unmet⟩
      · exact fun _ _ unmet => unmet

/-- When all stages of a node are done, its inputs are settled. -/
theorem settled_of_stages
    {id : Nat}
    (done : ∀ stage ∈ (design.node id).kind.stages, design.StageDone stage) :
    design.Settled id ∧ ∀ target, design.Refers id target → design.Underway target := by
  refine ⟨⟨?_, ?_⟩, ?_⟩
  · rintro request ⟨stage, planned, member⟩
    obtain ⟨point, producer, resolved, -⟩ := (done stage planned).answered request member
    exact ⟨producer, point, resolved⟩
  · rintro wire ⟨planned, laid, asked, resolved⟩
    obtain ⟨point, answered⟩ := (done _ planned).answered _ (List.mem_of_getElem? asked)
    have ⟨_, sameResolved, _⟩ := answered
    rw [← (sameResolved.unique resolved).2]
    exact (done _ planned).carried _ laid _ _ asked answered
  · rintro target ⟨request, producer, ⟨stage, planned, member⟩, found, rfl⟩
    obtain ⟨point, other, ⟨otherFound, -⟩, underway⟩ :=
      (done stage planned).answered request member
    rw [found] at otherFound
    cases otherFound
    exact underway

theorem outcome_run
    (operation : Synthesis Unit)
    (design : Design) :
    outcome operation design =
      match operation design with
      | .ok _ later => .ok none later
      | .error failure later =>
          if failure.cause.isOrdinary then .ok (some failure) later
          else .error failure later := by
  simp only [outcome, tryCatch, tryCatchThe, MonadExceptOf.tryCatch, EStateM.tryCatch, bind,
    EStateM.bind]
  cases operation design with
  | ok value later => rfl
  | error failure later =>
      simp only
      split <;> rfl

theorem outcome_ensures
    {operation : Synthesis Unit}
    {succeeded : Option Failure → Design → Prop}
    {failed : Failure → Design → Prop}
    (ensured :
      Ensures (operation design)
        (fun _ later => succeeded none later)
        (fun failure later =>
          failure.cause.isOrdinary ∧ succeeded (some failure) later)) :
    Ensures (outcome operation design) succeeded failed := by
  rw [outcome_run]
  cases result : operation design with
  | ok value later =>
      rw [result] at ensured
      exact ensured
  | error failure later =>
      rw [result] at ensured
      simp only [ensured.1, ↓reduceIte]
      exact ensured.2

theorem setWiring_run
    (design : Design)
    (id : Nat)
    (wiring : Wiring) :
    setWiring id wiring design = .ok () (design.mark id wiring) :=
  rfl

theorem stages_eq_nil
    {kind : NodeKind}
    (leaf : ¬kind.isWired) :
    kind.stages = [] := by
  cases kind <;> simp [NodeKind.isWired, NodeKind.stages] at leaf ⊢

/-- The nodes that are being wired lead to the one that was begun last. -/
theorem above_mark
    {id : Nat}
    (formed : design.Formed)
    (inRange : id < design.nodes.size)
    (idle : (design.node id).wiring = .idle)
    (above : ∀ other, (design.node other).wiring = .busy → TransGen design.Refers other id)
    (other : Nat)
    (busy : ((design.mark id .busy).node other).wiring = .busy) :
    ReflTransGen (design.mark id .busy).Refers other id := by
  have grows := ((Advance.start inRange idle above).follows formed).grows
  by_cases same : other = id
  · rw [same]
  · rw [node_mark_of_ne design same] at busy
    exact (TransGen.mono (fun _ _ => grows.refers formed) _ _ (above other busy)).to_reflTransGen

theorem working_mark
    {id depth : Nat}
    (formed : design.Formed)
    (inRange : id < design.nodes.size)
    (idle : (design.node id).wiring = .idle)
    (above : ∀ other, (design.node other).wiring = .busy → TransGen design.Refers other id)
    (wired : (design.node id).kind.isWired)
    (deep : design.openNodes.card < depth + 1) :
    (design.mark id .busy).Working id depth := by
  have follows := (Advance.start inRange idle above).follows formed
  refine ⟨follows.formed, by simp [node_mark design inRange],
    above_mark formed inRange idle above, ?_⟩
  have fewer : (design.mark id .busy).openNodes ⊂ design.openNodes := by
    refine Finset.ssubset_iff_subset_ne.mpr ⟨follows.open_subset, ?_⟩
    intro same
    have stillOpen : id ∈ (design.mark id .busy).openNodes := by
      rw [same, mem_openNodes]
      exact ⟨inRange, idle, wired⟩
    simp [mem_openNodes, node_mark design inRange] at stillOpen
  exact Nat.lt_of_lt_of_le (Finset.card_lt_card fewer) (Nat.le_of_lt_succ deep)

/-- After a node was begun and then recorded as done, the same nodes are being wired as before. -/
theorem passes_done
    {id : Nat}
    (inRange : id < design.nodes.size)
    (idle : (design.node id).wiring = .idle)
    (start : Advance design (design.mark id .busy))
    (passes : Passes (design.mark id .busy) later)
    {outcome : Option Failure}
    (record : Advance later (later.mark id (.done outcome))) :
    Passes design (later.mark id (.done outcome)) ∧
      ((later.mark id (.done outcome)).node id).wiring = .done outcome := by
  have laterInRange : id < later.nodes.size :=
    inRange_of_wiring (by simp [(passes.busy id).mpr (by simp [node_mark design inRange])])
  refine ⟨⟨?_, ?_⟩, by simp [node_mark later laterInRange]⟩
  · exact (ReflTransGen.head start passes.steps).tail record
  · intro other
    by_cases same : other = id
    · subst same
      simp [node_mark later laterInRange, idle]
    · rw [node_mark_of_ne later same, passes.busy other, node_mark_of_ne design same]

/-- The stages of a node that was begun end with all of them done, or with a request that cannot be
met. -/
theorem begun_ensures
    {id depth : Nat}
    (wires : WiresWithin depth)
    (formed : design.Formed)
    (inRange : id < design.nodes.size)
    (idle : (design.node id).wiring = .idle)
    (above : ∀ other, (design.node other).wiring = .busy → TransGen design.Refers other id)
    (deep : design.openNodes.card < depth + 1) :
    Ensures
      ((design.node id).kind.stages.forM (runStage (wireNode resolve depth) resolve)
        (design.mark id .busy))
      (fun _ later =>
        Passes (design.mark id .busy) later ∧
          Advance later (later.mark id (.done none)))
      (fun failure later =>
        failure.cause.isOrdinary ∧ Passes (design.mark id .busy) later ∧
          Advance later (later.mark id (.done (some failure)))) := by
  by_cases wired : (design.node id).kind.isWired
  · have working := working_mark formed inRange idle above wired deep
    refine (stages_ensures wires working _ (by simp)).mono ?_ ?_
    · rintro _ later ⟨passes, done⟩
      have workingOn := working.passes passes
      have sameKind : (later.node id).kind = (design.node id).kind := by
        rw [(passes.steps.follows working.formed).grows.kind_eq (by simpa), kind_mark]
      rw [← sameKind] at done
      obtain ⟨settled, underway⟩ := settled_of_stages done
      exact ⟨passes, .finish workingOn.busy workingOn.above settled underway⟩
    · rintro failure later ⟨passes, ordinary, request, asked, unmet⟩
      have workingOn := working.passes passes
      exact ⟨ordinary, passes,
        .giveUp workingOn.busy workingOn.above asked unmet ordinary⟩
  · have none := stages_eq_nil wired
    obtain ⟨settled, underway⟩ := settled_of_stages (by simp [none] :
      ∀ stage ∈ ((design.mark id .busy).node id).kind.stages, StageDone _ stage)
    rw [none]
    exact ⟨Passes.refl _, .finish (by simp [node_mark design inRange])
      (above_mark formed inRange idle above) settled underway⟩

/-- Wiring takes only elementary steps, at any depth that the nodes left to begin do not exceed. -/
theorem wiresWithin
    (depth : Nat) :
    WiresWithin depth := by
  induction depth with
  | zero =>
      intro design id _ _ _ deep
      omega
  | succ depth inductionHypothesis =>
      intro design id formed inRange above deep
      rw [wireNode, bind_of_ok (get_run design)]
      cases wiring : (design.node id).wiring with
      | busy =>
          exact ⟨Passes.refl design, .inl wiring⟩
      | done outcome =>
          cases outcome with
          | none =>
              exact ⟨Passes.refl design, .inr wiring⟩
          | some failure =>
              exact ⟨Passes.refl design, formed.ordinary wiring, wiring⟩
      | idle =>
          have start : Advance design (design.mark id .busy) := .start inRange wiring above
          apply Ensures.bind
          rw [setWiring_run]
          apply Ensures.bind
          apply outcome_ensures
          refine (begun_ensures inductionHypothesis formed inRange wiring above deep).mono ?_ ?_
          · rintro _ later ⟨passes, finish⟩
            obtain ⟨ended, marked⟩ := passes_done inRange wiring start passes finish
            exact ⟨ended, .inr marked⟩
          · rintro failure later ⟨ordinary, passes, giveUp⟩
            obtain ⟨ended, marked⟩ := passes_done inRange wiring start passes giveUp
            exact ⟨ordinary, ended, ordinary, marked⟩

/-- No more nodes are left to begin than the depth of a wiring allows. -/
theorem card_openNodes_lt
    (design : Design) :
    design.openNodes.card < design.wiringDepth := by
  have bounded := Finset.card_filter_le (Finset.range design.nodes.size) fun id =>
    (design.node id).wiring = .idle ∧ (design.node id).kind.isWired
  rw [Finset.card_range] at bounded
  exact Nat.lt_succ_of_le bounded

/-- Connecting a node within some levels of recursion, with nothing else being wired. -/
theorem connectAt_ensures
    {id depth : Nat}
    (formed : design.Formed)
    (inRange : id < design.nodes.size)
    (quiet : ∀ other, (design.node other).wiring ≠ .busy)
    (deep : design.openNodes.card < depth) :
    Ensures (connectWith (wireNode resolve depth) id design)
      (fun point later =>
        Passes design later ∧
          (later.node (later.wiredNode id)).wiring = .done none ∧
          point = (later.node id).kind.outlet)
      (fun failure later =>
        Passes design later ∧ failure.cause.isOrdinary ∧
          (later.node (later.wiredNode id)).wiring = .done (some failure)) := by
  apply connectWith_ensures
  refine (wiresWithin depth design (design.wiredNode id) formed
    (formed.wiredNode_lt inRange) (fun other busy => absurd busy (quiet other)) deep).mono ?_ ?_
  · rintro _ later ⟨passes, underway⟩
    have sameTarget := (passes.steps.follows formed).grows.wiredNode_eq inRange
    refine ⟨passes, ?_, rfl⟩
    rw [sameTarget]
    exact underway.resolve_left fun busy => quiet _ ((passes.busy _).mp busy)
  · rintro failure later ⟨passes, ordinary, failed⟩
    have sameTarget := (passes.steps.follows formed).grows.wiredNode_eq inRange
    exact ⟨passes, ordinary, by rw [sameTarget, failed]⟩

theorem connect_run
    (design : Design)
    (id : Nat) :
    connect resolve id design =
      connectWith (wireNode resolve design.wiringDepth) id design :=
  rfl

/-- Connecting a node, with nothing else being wired. -/
theorem connect_ensures
    {id : Nat}
    (formed : design.Formed)
    (inRange : id < design.nodes.size)
    (quiet : ∀ other, (design.node other).wiring ≠ .busy) :
    Ensures (connect resolve id design)
      (fun point later =>
        Passes design later ∧
          (later.node (later.wiredNode id)).wiring = .done none ∧
          point = (later.node id).kind.outlet)
      (fun failure later =>
        Passes design later ∧ failure.cause.isOrdinary ∧
          (later.node (later.wiredNode id)).wiring = .done (some failure)) := by
  rw [connect_run]
  exact connectAt_ensures formed inRange quiet design.card_openNodes_lt

end CircuitNetwork.Design
