import CircuitNetwork.Proofs.Synthesis.Formula

namespace CircuitNetwork.Design

/-!
# Tables of inputs and cells

If only primary inputs and cells are registered, and a vector keeps its producer
once nodes are wired, then a node that has been wired stays settled. If moreover no
cell depends on itself, then all cells below a wired one have been wired, and every
vector that a wired node produces denotes a formula. The netlist is kept beside the
design, and the nodes of the design stay what they were asked for.
-/

open Relation

variable {design later : Design}

/-- Note what was asked for under the identity that an operation returns. -/
def Addition.record
    (addition : Addition)
    (operation : Synthesis Nat)
    (state : Netlist × Design) :
    Netlist × Design :=
  match operation state.2 with
  | .ok id later => (state.1.note id addition, later)
  | .error _ later => (state.1, later)

theorem Addition.snd_record
    (addition : Addition)
    (state : Netlist × Design) :
    (addition.record addition.make state).2 = after addition.run state.2 := by
  rw [after_run, after, Addition.record]
  cases addition.make state.2 <;> rfl

/-- The node that a rule asks for. -/
def Rule.addition : Rule → Addition
  | comparison comparator a b => .comparison comparator a b
  | operation operator a b => .operation operator a b
  | mux a b select => .mux a b select

/-- A cell is added as the node that its rule asks for. -/
theorem addCell_eq
    {cell : Cell}
    {rule : Rule}
    (accepted : ruleOfCell cell = .ok rule) :
    addCell cell = rule.addition.make := by
  rw [addCell, accepted]
  cases rule <;> rfl

/-- What can be done to a design whose table holds inputs and cells only, and to its netlist. -/
inductive Compiles : Netlist × Design → Netlist × Design → Prop where
  | add {state : Netlist × Design} (addition : Addition) :
      Compiles state (addition.record addition.make state)
  | cell
      {state : Netlist × Design}
      {cell : Cell}
      {rule : Rule}
      (accepted : ruleOfCell cell = .ok rule) :
      Compiles state (rule.addition.record (addCell cell) state)
  | register
      {netlist : Netlist}
      {design : Design}
      {bits : List Bit}
      {id : Nat}
      (computes : netlist.Computes id)
      (unused :
        design.table.find? bits = none ∨ ∀ other, (design.node other).wiring = .idle) :
      Compiles (netlist, design)
        (netlist.enter bits id, after (register bits (some id)) design)
  | connect
      {netlist : Netlist}
      {design : Design}
      {id : Nat}
      (inRange : id < design.nodes.size) :
      Compiles (netlist, design) (netlist, after (connect resolve id) design)

/-- No node depends on itself. -/
def Acyclic (design : Design) : Prop :=
  ∀ id, ¬TransGen design.Refers id id

/-- What a node is that produces a bit vector. -/
inductive Source (design : Design) (bits : List Bit) (id : Nat) : Prop where
  | input (isInput : (design.node id).kind.isInput)
  | literal
      (constant : Nat)
      (isLiteral : (design.node id).kind = .literal constant)
      (body : (design.board.entity constant).body = .ofCount (Bit.word bits))
  | rule {rule : Rule} (isRule : design.rule? id = some rule)

/-- A design in which all vectors come from inputs, literals and cells. What is wired has all its
inputs, and if no node depends on itself, then they have been wired before. -/
structure Compiled (design : Design) : Prop where
  coherent : design.Coherent
  listed :
    ∀ node ∈ design.table.nodes,
      ∃ id bits, node = some id ∧ id < design.nodes.size ∧ design.Source bits id
  sources :
    ∀ {bits id}, design.table.find? bits = some (some id) → design.Source bits id
  settled : ∀ {id}, (design.node id).wiring = .done none → design.Settled id
  complete :
    design.Acyclic →
      ∀ {id target}, (design.node id).wiring = .done none → design.Refers id target →
        (design.node target).wiring = .done none

theorem Source.of_kind_eq
    {bits : List Bit}
    {id : Nat}
    (source : design.Source bits id)
    (kind_eq : (later.node id).kind = (design.node id).kind)
    (body_eq :
      ∀ entity ∈ (design.node id).kind.entities,
        (later.board.entity entity).body = (design.board.entity entity).body) :
    later.Source bits id := by
  cases source with
  | input isInput =>
      exact .input (by rwa [kind_eq])
  | literal constant isLiteral body =>
      refine .literal constant (kind_eq.trans isLiteral) ?_
      rw [isLiteral] at body_eq
      rw [body_eq constant List.mem_cons_self, body]
  | rule isRule =>
      exact .rule ((rule?_eq_of_kind_eq kind_eq body_eq).trans isRule)

theorem Source.grows
    {bits : List Bit}
    {id : Nat}
    (source : design.Source bits id)
    (grows : Grows design later)
    (grounded : design.Grounded)
    (inRange : id < design.nodes.size) :
    later.Source bits id :=
  source.of_kind_eq (grows.kind_eq inRange) fun entity member => by
    rw [grows.entity_eq (grounded.bounded inRange entity member)]

/-- The producer of a vector is wired itself. -/
theorem Source.wiredNode_eq
    {bits : List Bit}
    {id : Nat}
    (source : design.Source bits id) :
    design.wiredNode id = id := by
  unfold wiredNode
  split
  · rename_i isPort
    cases source with
    | input isInput => simp [isPort, NodeKind.isInput] at isInput
    | literal _ isLiteral => simp [isPort] at isLiteral
    | rule isRule => simp [rule?, isPort] at isRule
  · rfl

theorem Grows.acyclic
    (grows : Grows design later)
    (formed : design.Formed)
    (acyclic : later.Acyclic) :
    design.Acyclic :=
  fun id cycle => acyclic id (TransGen.mono (fun _ _ => grows.refers formed) _ _ cycle)

namespace Compiled

/-- What is left to show when a design grows. -/
theorem of_grows
    (compiled : design.Compiled)
    (coherent : later.Coherent)
    (grows : Grows design later)
    (joined :
      ∀ {color first second},
        design.board.Joined color first second → later.board.Joined color first second)
    (stays :
      ∀ {id}, (design.node id).wiring = .done none → (later.node id).wiring = .done none)
    (listedNew :
      ∀ node ∈ later.table.nodes,
        node ∈ design.table.nodes ∨
          ∃ id bits, node = some id ∧ id < later.nodes.size ∧ later.Source bits id)
    (sourcesNew :
      ∀ {bits id}, later.table.find? bits = some (some id) →
        design.table.find? bits = some (some id) ∨ later.Source bits id)
    (doneNew :
      ∀ {id}, (later.node id).wiring = .done none →
        (design.node id).wiring = .done none ∨
          later.Settled id ∧
            (later.Acyclic →
              ∀ target, later.Refers id target → (later.node target).wiring = .done none)) :
    later.Compiled where
  coherent := coherent
  listed node member := by
    rcases listedNew node member with before | new
    · obtain ⟨id, bits, same, inRange, source⟩ := compiled.listed node before
      exact ⟨id, bits, same, Nat.lt_of_lt_of_le inRange grows.size_le,
        source.grows grows compiled.coherent.grounded inRange⟩
    · exact new
  sources found := by
    rcases sourcesNew found with before | source
    · exact (compiled.sources before).grows grows compiled.coherent.grounded
        (compiled.coherent.formed.registered before)
    · exact source
  settled {id} done := by
    rcases doneNew done with before | new
    · exact (compiled.settled before).grows compiled.coherent.formed grows joined
        (inRange_of_wiring (by simp [before]))
    · exact new.1
  complete acyclic id target done refers := by
    have formed := compiled.coherent.formed
    rcases doneNew done with before | new
    · have inRange := inRange_of_wiring (show (design.node id).wiring ≠ .idle by simp [before])
      have refersBefore := grows.refers_of_settled formed inRange (compiled.settled before) refers
      exact stays (compiled.complete (grows.acyclic formed acyclic) before refersBefore)
    · exact new.2 acyclic target refers

theorem empty : Compiled {} where
  coherent := Standing.empty.coherent
  listed _ member := by cases member
  sources found := by cases found
  settled {id} done := by
    rw [Unwired.empty.idle id] at done
    cases done
  complete _ id _ done := by
    rw [Unwired.empty.idle id] at done
    cases done

theorem push
    (compiled : design.Compiled)
    (quiet : ∀ id, (design.node id).wiring ≠ .busy)
    (pushes : Pushes design later) :
    later.Compiled := by
  have standing := Standing.push ⟨compiled.coherent, quiet⟩ pushes
  obtain ⟨-, -, feeds, laced⟩ := id compiled.coherent
  refine compiled.of_grows standing.coherent pushes.grows ?_ ?_ ?_ ?_ ?_
  · cases pushes with
    | push => exact laced.spans.joined_install _
  · intro id
    rw [pushes.wiring_eq]
    exact fun done => done
  · intro node member
    cases pushes with
    | push => exact .inl member
  · intro bits id found
    cases pushes with
    | push => exact .inl found
  · intro id
    rw [pushes.wiring_eq]
    exact .inl

theorem add
    (compiled : design.Compiled)
    (standing : design.Standing)
    (addition : Addition) :
    (after addition.run design).Compiled := by
  refine (addition.preserves
    (motive := fun later => later.Standing ∧ later.Compiled) ⟨standing, compiled⟩ ?_).2
  rintro design later ⟨before, compiledBefore⟩ pushes
  exact ⟨before.push pushes, compiledBefore.push before.quiet pushes⟩

theorem mark
    (compiled : design.Compiled)
    {id : Nat}
    {wiring : Wiring}
    (step : Advance design (design.mark id wiring))
    (ends :
      wiring = .done none →
        design.Settled id ∧
          (design.Acyclic →
            ∀ target, design.Refers id target → (design.node target).wiring = .done none)) :
    (design.mark id wiring).Compiled := by
  have formed := compiled.coherent.formed
  have follows := step.follows formed
  have grows := follows.grows
  refine compiled.of_grows (compiled.coherent.advances (.single step)) grows follows.joined
    follows.done_eq (fun _ => .inl) .inl ?_
  intro other done
  rcases wiring_of_mark (by simp) done with before | ⟨rfl, inRange, isDone⟩
  · exact .inl before
  · obtain ⟨settled, complete⟩ := ends isDone
    refine .inr ⟨settled.grows formed grows follows.joined inRange, fun acyclic target refers => ?_⟩
    exact follows.done_eq (complete (grows.acyclic formed acyclic) target
      (grows.refers_of_settled formed inRange settled refers))

/-- Every step of a wiring keeps what is known of wired nodes. -/
theorem advance
    (compiled : design.Compiled)
    (step : Advance design later) :
    later.Compiled := by
  have formed := compiled.coherent.formed
  have coherent := compiled.coherent.advances (.single step)
  have follows := step.follows formed
  have taken := step
  cases step with
  | start inRange idle above =>
      exact compiled.mark taken (by simp)
  | giveUp busy above asked unmet ordinary =>
      exact compiled.mark taken (by simp)
  | @finish id busy above settled underway =>
      refine compiled.mark taken fun _ => ⟨settled, fun acyclic target refers => ?_⟩
      -- A target that is still being wired leads back to the node.
      refine (underway target refers).resolve_left fun targetBusy => ?_
      exact acyclic id (TransGen.head' refers (above target targetBusy))
  | lay busy supply =>
      exact compiled.of_grows coherent follows.grows follows.joined follows.done_eq
        (fun _ => .inl) .inl .inl
  | @literal id request count busy asked missing constant counted =>
      have source :
          (design.withLiteral request.bits count).Source request.bits design.nodes.size := by
        refine .literal design.board.size ?_ ?_
        · rw [node_withLiteral, if_pos rfl]
        · rw [word_eq_of_literalCount counted]
          exact design.board.body_install ⟨[.ofCount count], []⟩ 0 rfl
      refine compiled.of_grows coherent follows.grows follows.joined follows.done_eq ?_ ?_ ?_
      · intro node member
        refine (Table.mem_nodes_add member).imp_right fun same => ⟨_, _, same, ?_, source⟩
        simp [withLiteral, Design.enter]
      · intro bits producer found
        simp only [withLiteral, Design.enter, Table.find?_add] at found
        split at found
        · rename_i same
          cases found
          exact .inr (same ▸ source)
        · exact .inl found
      · intro other done
        rw [node_withLiteral] at done
        split at done
        · cases done
        · exact .inl done

theorem advances
    (compiled : design.Compiled)
    (steps : Advances design later) :
    later.Compiled := by
  induction steps with
  | refl => exact compiled
  | tail _ step inductionHypothesis => exact inductionHypothesis.advance step

/-- A producer may be registered for a new vector, or as long as nothing has been wired. -/
theorem enter
    (compiled : design.Compiled)
    {bits : List Bit}
    {id : Nat}
    (inRange : id < design.nodes.size)
    (coherent : (design.enter bits (some id)).Coherent)
    (computes : (design.node id).kind.isInput ∨ (design.rule? id).isSome)
    (unused :
      design.table.find? bits = none ∨ ∀ other, (design.node other).wiring = .idle) :
    (design.enter bits (some id)).Compiled := by
  have source : design.Source bits id := by
    rcases computes with isInput | isRule
    · exact .input isInput
    · exact .rule (Option.some_get isRule).symm
  have entered {asked : List Bit} {producer : Nat}
      (found : (design.enter bits (some id)).table.find? asked = some (some producer)) :
      design.Source asked producer ∨ design.table.find? asked = some (some producer) := by
    simp only [Design.enter, Table.find?_add] at found
    split at found
    · rename_i same
      cases found
      exact .inl (same ▸ source)
    · exact .inr found
  have keeps {asked : List Bit} {producer : Nat} (source : design.Source asked producer) :
      (design.enter bits (some id)).Source asked producer :=
    source.of_kind_eq rfl fun _ _ => rfl
  have listed {node : Option Nat} (member : node ∈ (design.enter bits (some id)).table.nodes) :
      node ∈ design.table.nodes ∨
        ∃ other asked, node = some other ∧ other < design.nodes.size ∧
          (design.enter bits (some id)).Source asked other :=
    (Table.mem_nodes_add member).imp_right fun same => ⟨id, bits, same, inRange, keeps source⟩
  rcases unused with missing | idle
  · refine compiled.of_grows coherent (grows_enter missing _) (fun shared => shared)
      (fun done => done) (fun _ => listed) ?_ .inl
    intro asked producer found
    exact (entered found).elim (fun source => .inr (keeps source)) .inl
  · have nothingDone {other : Nat}
        (done : (((design.enter bits (some id)).node other).wiring) = .done none) : False := by
      have stillIdle : ((design.enter bits (some id)).node other).wiring = .idle := idle other
      rw [stillIdle] at done
      cases done
    refine ⟨coherent, fun node member => ?_, fun found => ?_, fun done => (nothingDone done).elim,
      fun _ _ _ done => (nothingDone done).elim⟩
    · refine (listed member).elim (fun before => ?_) fun new => new
      obtain ⟨other, asked, same, otherInRange, otherSource⟩ := compiled.listed node before
      exact ⟨other, asked, same, otherInRange, keeps otherSource⟩
    · exact keeps ((entered found).elim (fun source => source) compiled.sources)

/-- Numbers and positions of entities do not matter. -/
theorem withBoard
    (compiled : design.Compiled)
    {board : Board}
    (alike : design.board.Alike board) :
    Compiled { design with board := board } := by
  have joined {color : Color} {first second : Endpoint}
      (shared : design.board.Joined color first second) : board.Joined color first second := by
    simpa only [Board.Joined, Board.network?, alike.wires_eq] using shared
  have keeps {bits : List Bit} {id : Nat} (source : design.Source bits id) :
      Source { design with board := board } bits id :=
    source.of_kind_eq rfl fun entity _ => alike.body_eq entity
  refine ⟨compiled.coherent.withBoard alike, ?_, fun found => keeps (compiled.sources found), ?_,
    compiled.complete⟩
  · intro node member
    obtain ⟨id, bits, same, inRange, source⟩ := compiled.listed node member
    exact ⟨id, bits, same, inRange, keeps source⟩
  · intro id done
    have settled := compiled.settled done
    refine ⟨settled.resolved, ?_⟩
    rintro wire ⟨planned, laid, asked, resolved⟩
    exact (settled.carried _ (.tie planned laid asked resolved)).mono joined

end Compiled

/-! ## Netlists of designs -/

/-- The nodes of a design are what they were asked for, and its table holds the producers that were
registered, and literals. -/
structure Faithful (netlist : Netlist) (design : Design) : Prop where
  fits :
    ∀ {id addition}, netlist.node? id = some addition →
      id < design.nodes.size ∧ design.Fits id addition
  registered :
    ∀ {bits id}, netlist.producer? bits = some id → design.table.find? bits = some (some id)
  produced :
    ∀ {bits id}, design.table.find? bits = some (some id) →
      netlist.producer? bits = some id ∧ netlist.Computes id ∨
        netlist.producer? bits = none ∧ (∃ constant, (design.node id).kind = .literal constant) ∧
          ∃ count, literalCount bits = .ok count

namespace Faithful

variable {netlist : Netlist}

theorem empty : Faithful {} {} where
  fits given := by cases given
  registered found := by cases found
  produced found := by cases found

/-- What is left to show when a design grows: the vectors that are new in the table are literals. -/
theorem of_grows
    (faithful : Faithful netlist design)
    (grounded : design.Grounded)
    (formed : design.Formed)
    (grows : Grows design later)
    (producedNew :
      ∀ {bits id}, later.table.find? bits = some (some id) →
        design.table.find? bits = some (some id) ∨
          netlist.producer? bits = none ∧ (∃ constant, (later.node id).kind = .literal constant) ∧
            ∃ count, literalCount bits = .ok count) :
    Faithful netlist later where
  fits given := by
    obtain ⟨inRange, fits⟩ := faithful.fits given
    refine ⟨Nat.lt_of_lt_of_le inRange grows.size_le, fits.of_kind_eq (grows.kind_eq inRange) ?_⟩
    intro entity member
    rw [grows.entity_eq (grounded.bounded inRange entity member)]
  registered found := grows.find?_eq (faithful.registered found)
  produced found := by
    rcases producedNew found with before | new
    · rcases faithful.produced before with registered | ⟨free, isLiteral, counted⟩
      · exact .inl registered
      · exact .inr ⟨free, by rwa [grows.kind_eq (formed.registered before)], counted⟩
    · exact .inr new

theorem push
    (faithful : Faithful netlist design)
    (standing : design.Standing)
    (pushes : Pushes design later) :
    Faithful netlist later := by
  refine faithful.of_grows standing.coherent.grounded standing.coherent.formed pushes.grows ?_
  intro bits id found
  cases pushes with
  | push => exact .inl found

/-- A node that is added is noted as what it was asked for. -/
theorem record
    (faithful : Faithful netlist design)
    (standing : design.Standing)
    (addition : Addition) :
    let noted := addition.record addition.make (netlist, design)
    Faithful noted.1 noted.2 := by
  have added : Faithful netlist (after addition.make design) := by
    rw [← after_run]
    refine (addition.preserves
      (motive := fun later => later.Standing ∧ Faithful netlist later) ⟨standing, faithful⟩ ?_).2
    rintro middle later ⟨before, faithfulBefore⟩ pushes
    exact ⟨before.push pushes, faithfulBefore.push before pushes⟩
  unfold Addition.record
  cases made : addition.make design with
  | error failure later =>
      rw [after, made] at added
      exact added
  | ok id later =>
      rw [after, made] at added
      obtain ⟨isNew, inRange, fits⟩ := fits_of_make made
      change Faithful (netlist.note id addition) later
      refine ⟨fun given => ?_, added.registered, fun found => ?_⟩
      · rw [Netlist.node?_note] at given
        split at given
        · rename_i same
          cases given
          exact same ▸ ⟨inRange, fits⟩
        · exact added.fits given
      · rcases added.produced found with ⟨isProducer, other, given, computes⟩ | literal
        · -- A producer was noted before, so that its identity is not the new one.
          have known := (faithful.fits given).1
          refine .inl ⟨isProducer, other, ?_, computes⟩
          rw [Netlist.node?_note, if_neg (by omega), given]
        · exact .inr literal

/-- Registering a producer enters it in the netlist and in the table. -/
theorem enter
    (faithful : Faithful netlist design)
    {id : Nat}
    (computes : netlist.Computes id)
    (bits : List Bit) :
    Faithful (netlist.enter bits id) (design.enter bits (some id)) where
  fits given := by
    obtain ⟨inRange, fits⟩ := faithful.fits given
    exact ⟨inRange, fits.of_kind_eq rfl fun _ _ => rfl⟩
  registered found := by
    rw [Netlist.producer?_enter] at found
    rw [Design.enter, Table.find?_add]
    split at found
    · rename_i same
      rw [if_pos same, found]
    · rename_i different
      rw [if_neg different]
      exact faithful.registered found
  produced found := by
    rw [Design.enter, Table.find?_add] at found
    rw [Netlist.producer?_enter]
    split at found
    · rename_i same
      cases found
      exact .inl ⟨if_pos same, computes⟩
    · rename_i different
      rw [if_neg different]
      exact faithful.produced found

/-- A wiring adds nothing to the table but literals, for vectors without a producer. -/
theorem advance
    (faithful : Faithful netlist design)
    (coherent : design.Coherent)
    (step : Advance design later) :
    Faithful netlist later := by
  refine faithful.of_grows coherent.grounded coherent.formed (step.follows coherent.formed).grows ?_
  intro bits id found
  cases step with
  | start | finish | giveUp | lay => exact .inl found
  | @literal node request count busy asked missing constant counted =>
      simp only [withLiteral, Design.enter, Table.find?_add] at found
      split at found
      · rename_i same
        cases found
        subst same
        refine .inr ⟨?_, ⟨design.board.size, ?_⟩, count, counted⟩
        · by_contra registered
          obtain ⟨producer, isProducer⟩ := Option.ne_none_iff_exists'.mp registered
          rw [faithful.registered isProducer] at missing
          cases missing
        · rw [node_withLiteral, if_pos rfl]
      · exact .inl found

theorem advances
    (faithful : Faithful netlist design)
    (coherent : design.Coherent)
    (steps : Advances design later) :
    Faithful netlist later := by
  induction steps with
  | refl =>
      exact faithful
  | tail before step inductionHypothesis =>
      exact inductionHypothesis.advance (coherent.advances before) step

/-- Numbers and positions of entities do not matter. -/
theorem withBoard
    (faithful : Faithful netlist design)
    {board : Board}
    (alike : design.board.Alike board) :
    Faithful netlist { design with board := board } where
  fits given := by
    obtain ⟨inRange, fits⟩ := faithful.fits given
    exact ⟨inRange, fits.of_kind_eq rfl fun entity _ => alike.body_eq entity⟩
  registered := faithful.registered
  produced := faithful.produced

/-- A registered node is an input or a cell of the design. -/
theorem computes
    (faithful : Faithful netlist design)
    {id : Nat}
    (computes : netlist.Computes id) :
    id < design.nodes.size ∧ ((design.node id).kind.isInput ∨ (design.rule? id).isSome) := by
  obtain ⟨addition, given, isProducer⟩ := computes
  obtain ⟨inRange, fits⟩ := faithful.fits given
  refine ⟨inRange, ?_⟩
  cases addition with
  | input bits =>
      obtain ⟨constant, isKind⟩ := fits
      rw [isKind]
      exact .inl rfl
  | comparison comparator a b => exact .inr (Option.isSome_of_eq_some fits)
  | operation operator a b => exact .inr (Option.isSome_of_eq_some fits)
  | mux a b select => exact .inr (Option.isSome_of_eq_some fits)
  | literal | tap | output | memory => cases isProducer

end Faithful

theorem Compiles.builds
    {state next : Netlist × Design}
    (step : Compiles state next)
    (faithful : Faithful state.1 state.2)
    (standing : state.2.Standing) :
    Builds state.2 next.2 := by
  cases step with
  | add addition =>
      rw [addition.snd_record]
      exact .add addition
  | cell accepted =>
      rw [addCell_eq accepted, Addition.snd_record]
      exact .add _
  | register computes =>
      exact .use (standing.coherent.formed.names.add _ (faithful.computes computes).1)
  | connect inRange => exact .connect inRange

/-- Whatever is done to a design of inputs and cells, it stays one. -/
theorem Compiles.compiled
    {state next : Netlist × Design}
    (step : Compiles state next)
    (faithful : Faithful state.1 state.2)
    (standing : state.2.Standing)
    (compiled : state.2.Compiled) :
    next.2.Compiled := by
  have standingLater := ((step.builds faithful standing).standing standing).1
  cases step with
  | add addition =>
      rw [addition.snd_record]
      exact compiled.add standing addition
  | cell accepted =>
      rw [addCell_eq accepted, Addition.snd_record]
      exact compiled.add standing _
  | register computes unused =>
      obtain ⟨inRange, isProducer⟩ := faithful.computes computes
      exact compiled.enter inRange standingLater.coherent isProducer unused
  | connect inRange =>
      exact compiled.advances (standing.connect inRange).steps

/-- Whatever is done, the nodes stay what they were asked for. -/
theorem Compiles.faithful
    {state next : Netlist × Design}
    (step : Compiles state next)
    (faithful : Faithful state.1 state.2)
    (standing : state.2.Standing) :
    Faithful next.1 next.2 := by
  cases step with
  | add addition => exact faithful.record standing addition
  | cell accepted =>
      rw [addCell_eq accepted]
      exact faithful.record standing _
  | register computes => exact faithful.enter computes _
  | connect inRange => exact faithful.advances standing.coherent (standing.connect inRange).steps

theorem compiled_of_compiles
    {state last : Netlist × Design}
    (standing : state.2.Standing)
    (compiled : state.2.Compiled)
    (faithful : Faithful state.1 state.2)
    (steps : ReflTransGen Compiles state last) :
    ReflTransGen Builds state.2 last.2 ∧ last.2.Compiled ∧ Faithful last.1 last.2 := by
  induction steps with
  | refl =>
      exact ⟨.refl, compiled, faithful⟩
  | tail _ step inductionHypothesis =>
      obtain ⟨builds, compiledMiddle, faithfulMiddle⟩ := inductionHypothesis
      have middle := (standing_of_builds standing builds).1
      exact ⟨builds.tail (step.builds faithfulMiddle middle),
        step.compiled faithfulMiddle middle compiledMiddle, step.faithful faithfulMiddle middle⟩

/-! ## Formulas of wired vectors -/

theorem Acyclic.wellFounded
    (acyclic : design.Acyclic)
    (formed : design.Formed) :
    WellFounded fun target id => design.Refers id target := by
  classical
  -- Fewer nodes are below a target than below what refers to it, since the target is not below
  -- itself.
  let below (id : Nat) : Finset Nat :=
    (Finset.range design.nodes.size).filter (TransGen design.Refers id)
  refine Subrelation.wf ?_ (measure fun id => (below id).card).wf
  intro target id refers
  refine Finset.card_lt_card (Finset.ssubset_iff_subset_ne.mpr ⟨?_, ?_⟩)
  · intro other member
    simp only [below, Finset.mem_filter] at member ⊢
    exact ⟨member.1, TransGen.head refers member.2⟩
  · intro same
    have member : target ∈ below id := by
      simp only [below, Finset.mem_filter, Finset.mem_range]
      exact ⟨refers.inRange formed, .single refers⟩
    rw [← same] at member
    simp only [below, Finset.mem_filter] at member
    exact acyclic target member.2

/-- A wiring asks for producers that have wirings of their own. -/
theorem Compiled.found_of_refers
    (compiled : design.Compiled)
    {id target : Nat}
    (refers : design.Refers id target) :
    ∃ request, design.Requests id request ∧
      design.table.find? request.bits = some (some target) := by
  obtain ⟨request, producer, asked, found, rfl⟩ := refers
  refine ⟨request, asked, ?_⟩
  rw [(compiled.sources found).wiredNode_eq, found]

/-- What a wired node asks for has been wired. -/
theorem Compiled.exists_producer
    (compiled : design.Compiled)
    (acyclic : design.Acyclic)
    {id : Nat}
    (done : (design.node id).wiring = .done none)
    {request : Request}
    (asked : design.Requests id request) :
    ∃ producer, design.table.find? request.bits = some (some producer) ∧
      design.Refers id producer ∧ (design.node producer).wiring = .done none := by
  obtain ⟨producer, point, resolved⟩ := (compiled.settled done).resolved request asked
  have target := (compiled.sources resolved.1).wiredNode_eq
  have refers : design.Refers id producer :=
    ⟨request, producer, asked, resolved.1, target.symm⟩
  exact ⟨producer, resolved.1, refers, compiled.complete acyclic done refers⟩

theorem Compiled.exists_operand
    (compiled : design.Compiled)
    (acyclic : design.Acyclic)
    {id : Nat}
    (done : (design.node id).wiring = .done none)
    {addition : Addition}
    (fits : design.Fits id addition)
    (computes : addition.computes)
    {bits : List Bit}
    (operand : bits ∈ addition.operands) :
    ∃ producer, design.table.find? bits = some (some producer) ∧
      design.Refers id producer ∧ (design.node producer).wiring = .done none := by
  obtain ⟨request, asked, rfl⟩ := (fits.mem_operands_iff computes).mp operand
  exact compiled.exists_producer acyclic done asked

namespace Faithful

variable {netlist : Netlist}

/-- The producer of a vector that asks for something is no literal. -/
theorem produced_of_requests
    (faithful : Faithful netlist design)
    {bits : List Bit}
    {id : Nat}
    (found : design.table.find? bits = some (some id))
    {request : Request}
    (asked : design.Requests id request) :
    netlist.producer? bits = some id ∧ netlist.Computes id := by
  refine (faithful.produced found).resolve_right ?_
  rintro ⟨-, ⟨constant, isLiteral⟩, -⟩
  obtain ⟨stage, planned, -⟩ := asked
  rw [isLiteral] at planned
  cases planned

/-- Where a cell that is asked for asks for another cell, it reads what that one produces. -/
theorem needs_of_refers
    (faithful : Faithful netlist design)
    (compiled : design.Compiled)
    {before id target next : Nat}
    (isTarget : design.Refers before id)
    (refers : design.Refers id target)
    (onward : design.Refers target next) :
    netlist.Needs id target := by
  obtain ⟨_, -, foundId⟩ := compiled.found_of_refers isTarget
  obtain ⟨request, asked, foundTarget⟩ := compiled.found_of_refers refers
  obtain ⟨_, askedNext, -⟩ := compiled.found_of_refers onward
  obtain ⟨-, addition, given, computes⟩ := faithful.produced_of_requests foundId asked
  obtain ⟨isProducer, -⟩ := faithful.produced_of_requests foundTarget askedNext
  have operand := ((faithful.fits given).2.mem_operands_iff computes).mpr ⟨request, asked, rfl⟩
  exact ⟨addition, request.bits, given, operand, isProducer⟩

/-- If no cell of the netlist depends on itself, then no node of the design does. -/
theorem acyclic
    (faithful : Faithful netlist design)
    (compiled : design.Compiled)
    (acyclic : netlist.Acyclic) :
    design.Acyclic := by
  intro id cycle
  obtain ⟨last, -, back⟩ := TransGen.tail'_iff.mp cycle
  obtain ⟨first, onward, -⟩ := TransGen.head'_iff.mp cycle
  -- Every node of the cycle is asked for and asks, so each of its steps is one of the netlist.
  have path {target next : Nat} (leads : TransGen design.Refers id target)
      (onward : design.Refers target next) : TransGen netlist.Needs id target := by
    induction leads generalizing next with
    | single refers =>
        exact .single (faithful.needs_of_refers compiled back refers onward)
    | tail leads refers inductionHypothesis =>
        obtain ⟨previous, -, asks⟩ := TransGen.tail'_iff.mp leads
        exact (inductionHypothesis refers).tail
          (faithful.needs_of_refers compiled asks refers onward)
  exact acyclic id (path cycle onward)

end Faithful

/-- A vector denotes a formula if its producer has been wired. -/
theorem Compiled.exists_denotes
    (compiled : design.Compiled)
    {netlist : Netlist}
    (faithful : Faithful netlist design)
    (acyclic : design.Acyclic)
    {id : Nat}
    (done : (design.node id).wiring = .done none)
    {bits : List Bit}
    (found : design.table.find? bits = some (some id)) :
    ∃ formula, netlist.Denotes bits formula := by
  -- The induction is on the cells below the producer.
  induction id using (acyclic.wellFounded compiled.coherent.formed).induction generalizing bits with
  | _ id inductionHypothesis =>
      rcases faithful.produced found with ⟨isProducer, addition, given, computes⟩ |
        ⟨free, -, count, counted⟩
      · have operand (asked : List Bit) (member : asked ∈ addition.operands) :
            ∃ formula, netlist.Denotes asked formula := by
          obtain ⟨producer, producerFound, refers, producerDone⟩ :=
            compiled.exists_operand acyclic done (faithful.fits given).2 computes member
          exact inductionHypothesis producer refers producerDone producerFound
        cases addition with
        | input own =>
            exact ⟨_, .input isProducer given⟩
        | comparison comparator a b =>
            obtain ⟨left, denotesLeft⟩ := operand a (by simp [Addition.operands])
            obtain ⟨right, denotesRight⟩ := operand b (by simp [Addition.operands])
            exact ⟨_, .comparison isProducer given denotesLeft denotesRight⟩
        | operation operator a b =>
            obtain ⟨left, denotesLeft⟩ := operand a (by simp [Addition.operands])
            obtain ⟨right, denotesRight⟩ := operand b (by simp [Addition.operands])
            exact ⟨_, .operation isProducer given denotesLeft denotesRight⟩
        | mux a b select =>
            obtain ⟨left, denotesLeft⟩ := operand a (by simp [Addition.operands])
            obtain ⟨right, denotesRight⟩ := operand b (by simp [Addition.operands])
            obtain ⟨choice, denotesChoice⟩ := operand select (by simp [Addition.operands])
            exact ⟨_, .mux isProducer given denotesLeft denotesRight denotesChoice⟩
        | literal | tap | output | memory => cases computes
      · obtain ⟨short, number, written, -⟩ := literalCount_eq_ok_iff.mp counted
        exact ⟨_, .literal free (Bit.digits_of_value? written) short⟩

end CircuitNetwork.Design
