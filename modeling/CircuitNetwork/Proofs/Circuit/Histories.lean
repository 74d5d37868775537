import CircuitNetwork.Proofs.Circuit.Start
import CircuitNetwork.Proofs.Circuit.Value
import CircuitNetwork.Proofs.Wire.Anchors

namespace CircuitNetwork

/-!
# Histories of a simulation

Entities are made, connections are asked for, a circuit is set up, driven and
stepped, in any order. Steps read the networks only through sums over the
endpoints that wires join. So it does not matter in which order the connections
between two steps were made, how each of them lists its endpoints, and in which
order the circuit lists its members.
-/

/-- A board and the circuit that runs on it. At first there is nothing on the board, and the circuit
has no members. -/
structure Trial where
  board : Board := {}
  circuit : Circuit := Circuit.fresh [] 0

/-- Whether a circuit can be set up depends on the entities only. -/
theorem Circuit.ofEntities_congr
    {board other : Board}
    (same : ∀ id, other.entity id = board.entity id)
    (workers : Int)
    (ids : List Nat) :
    ofEntities other workers ids = ofEntities board workers ids := by
  have sameMember : checkMember other = checkMember board := by
    funext earlier id
    simp only [checkMember, same]
  have sameMembers (earlier rest : List Nat) :
      checkMembers other earlier rest = checkMembers board earlier rest := by
    induction rest generalizing earlier with
    | nil =>
        rfl
    | cons id rest inductionHypothesis =>
        simp only [checkMembers, sameMember, inductionHypothesis]
  simp only [ofEntities, sameMembers]

namespace Trial

/-- What can be done in a trial. Entities can be added and changed at any time. -/
inductive Move where
  | edit (change : Array Entity → Array Entity)
  | connect (connection : Connection)
  | simulate (members : List Nat) (workers : Int)
  | drive (entity : Nat) (signal : Signal) (source : Nat → Int32)
  | change (index : Nat) (source : Nat → Int32)
  | step

/-- Make a move. Connections and circuits that are refused leave everything as it is. -/
def perform (trial : Trial) : Move → Trial
  | .edit change =>
      { trial with board := { trial.board with entities := change trial.board.entities } }
  | .connect connection => { trial with board := trial.board.attempt connection }
  | .simulate members workers =>
      match Circuit.ofEntities trial.board workers members with
      | .ok circuit => { trial with circuit := circuit }
      | .error _ => trial
  | .drive entity signal source =>
      { trial with circuit := trial.circuit.drive trial.board entity signal source }
  | .change index source =>
      { trial with circuit := { trial.circuit with
          drivers := trial.circuit.drivers.modify index ({ · with source := source }) } }
  | .step => { trial with circuit := trial.circuit.step trial.board }

/-- Make moves one after another. -/
def performAll (trial : Trial) (moves : List Move) : Trial :=
  moves.foldl perform trial

/-- The same moves up to order: a connection may be made earlier or later as long as no step lies
between, it may list its endpoints in any order, and so may a circuit its members. The number of
workers may differ as well. -/
inductive Rearranged : List Move → List Move → Prop where
  | refl (moves : List Move) : Rearranged moves moves
  | symm {moves others : List Move}
      (rearranged : Rearranged moves others) :
      Rearranged others moves
  | trans {moves others last : List Move}
      (first : Rearranged moves others)
      (second : Rearranged others last) :
      Rearranged moves last
  | cons {moves others : List Move}
      (move : Move)
      (rearranged : Rearranged moves others) :
      Rearranged (move :: moves) (move :: others)
  | turn {points others : List (Option Endpoint)}
      (color : ColorCode)
      (permuted : points.Perm others)
      (moves : List Move) :
      Rearranged (.connect ⟨color, points⟩ :: moves) (.connect ⟨color, others⟩ :: moves)
  | delay (connection : Connection)
      (move : Move)
      (noStep : move ≠ .step)
      (moves : List Move) :
      Rearranged (.connect connection :: move :: moves) (move :: .connect connection :: moves)
  | relist {members others : List Nat}
      (permuted : members.Perm others)
      (workers otherWorkers : Int)
      (moves : List Move) :
      Rearranged (.simulate members workers :: moves) (.simulate others otherWorkers :: moves)

/-- Connections that follow each other may be made in any order. -/
theorem Rearranged.of_perm
    {connections others : List Connection}
    (permuted : connections.Perm others)
    (moves : List Move) :
    Rearranged (connections.map .connect ++ moves) (others.map .connect ++ moves) := by
  induction permuted with
  | nil =>
      exact .refl moves
  | cons connection _ inductionHypothesis =>
      exact .cons (.connect connection) inductionHypothesis
  | swap first second rest =>
      exact .delay second (.connect first) (by simp) (rest.map .connect ++ moves)
  | trans _ _ first second =>
      exact first.trans second

/-! ## Wires that connections lay -/

/-- A connection that lists the same endpoints joins the same endpoints. -/
theorem laid_append_wires
    {wires : List (Color × List Endpoint)}
    {points others : List (Option Endpoint)}
    (color : ColorCode)
    (permuted : points.Perm others) :
    Board.Laid (wires ++ Connection.wires ⟨color, others⟩) =
      Board.Laid (wires ++ Connection.wires ⟨color, points⟩) := by
  have turned {points others : List (Option Endpoint)} (permuted : points.Perm others)
      {asked : Color} {first second : Endpoint}
      (laid : Board.Laid (wires ++ Connection.wires ⟨color, points⟩) asked first second) :
      Board.Laid (wires ++ Connection.wires ⟨color, others⟩) asked first second := by
    obtain ⟨listed, isWire, isFirst, isSecond⟩ := laid
    rcases List.mem_append.mp isWire with earlier | now
    · exact ⟨listed, List.mem_append_left _ earlier, isFirst, isSecond⟩
    · obtain ⟨enough, present, includes⟩ := Connection.mem_wires_iff.mp now
      have relisted : Relation.Comp (· = List.map some ·) List.Perm others listed := by
        rw [List.eq_map_comp_perm]
        exact permuted.symm.trans (.of_eq present)
      obtain ⟨turned, isTurned, sameListed⟩ := relisted
      refine ⟨turned, List.mem_append_right _ (Connection.mem_wires_iff.mpr
        ⟨sameListed.length_eq ▸ enough, isTurned, includes⟩), ?_, ?_⟩
      · exact sameListed.mem_iff.mpr isFirst
      · exact sameListed.mem_iff.mpr isSecond
  funext asked first second
  exact propext ⟨turned permuted.symm, turned permuted⟩

theorem spans_attempt
    {board : Board}
    {wires : List (Color × List Endpoint)}
    (spans : board.Spans wires)
    (connection : Connection) :
    (board.attempt connection).Spans (wires ++ connection.wires) := by
  rw [Connection.attempt_eq]
  exact spans.lay connection.wires

theorem entities_attempt
    (board : Board)
    (connection : Connection) :
    (board.attempt connection).entities = board.entities := by
  rw [Connection.attempt_eq, Board.entities_lay]

/-! ## Trials that cannot be told apart -/

/-- Trials on the same entities, joined by the same wires. Their circuits have the same members, drivers
and outputs. -/
structure Alike (trial other : Trial) : Prop where
  entities_eq : other.board.entities = trial.board.entities
  spanned : ∃ wires, trial.board.Spans wires ∧ other.board.Spans wires
  permuted : trial.circuit.members.Perm other.circuit.members
  drivers_eq : other.circuit.drivers = trial.circuit.drivers
  sound : trial.circuit.Sound
  otherSound : other.circuit.Sound
  output_eq : ∀ id, other.circuit.output id = trial.circuit.output id

namespace Alike

variable {trial other third : Trial}

theorem symm
    (alike : Alike trial other) :
    Alike other trial where
  entities_eq := alike.entities_eq.symm
  spanned := alike.spanned.imp fun _ both => both.symm
  permuted := alike.permuted.symm
  drivers_eq := alike.drivers_eq.symm
  sound := alike.otherSound
  otherSound := alike.sound
  output_eq id := (alike.output_eq id).symm

theorem joined_iff
    (alike : Alike trial other)
    (color : Color)
    (first second : Endpoint) :
    other.board.Joined color first second ↔ trial.board.Joined color first second := by
  obtain ⟨wires, spans, otherSpans⟩ := alike.spanned
  rw [spans.joined_iff, otherSpans.joined_iff]

theorem trans
    (alike : Alike trial other)
    (next : Alike other third) :
    Alike trial third where
  entities_eq := next.entities_eq.trans alike.entities_eq
  spanned := by
    obtain ⟨wires, spans, -⟩ := alike.spanned
    obtain ⟨_, _, thirdSpans⟩ := next.spanned
    refine ⟨wires, spans, thirdSpans.tidy, ?_⟩
    intro color first second
    rw [next.joined_iff, alike.joined_iff, spans.joined_iff]
  permuted := alike.permuted.trans next.permuted
  drivers_eq := next.drivers_eq.trans alike.drivers_eq
  sound := alike.sound
  otherSound := next.otherSound
  output_eq id := (next.output_eq id).trans (alike.output_eq id)

theorem rfl_left
    (alike : Alike trial other) :
    Alike trial trial :=
  alike.trans alike.symm

theorem entity_eq
    (alike : Alike trial other)
    (id : Nat) :
    other.board.entity id = trial.board.entity id := by
  rw [Board.entity, Board.entity, alike.entities_eq]

/-! ## Values -/

theorem sources_eq
    (alike : Alike trial other)
    (color : Color)
    (point : Endpoint) :
    other.circuit.sources other.board color point =
      trial.circuit.sources trial.board color point := by
  ext id
  have sameOutput : other.board.output id = trial.board.output id := by
    rw [Board.output, Board.output, alike.entity_eq]
  simp only [Circuit.sources, Finset.mem_filter, List.mem_toFinset, ← alike.permuted.mem_iff,
    sameOutput, alike.joined_iff]

theorem value_eq
    (alike : Alike trial other)
    (point : Endpoint)
    (color : Color)
    (signal : Signal) :
    other.circuit.value other.board point color signal =
      trial.circuit.value trial.board point color signal := by
  obtain ⟨wires, spans, otherSpans⟩ := alike.spanned
  rw [Circuit.value_eq_sum alike.sound spans.tidy,
    Circuit.value_eq_sum alike.otherSound otherSpans.tidy, alike.sources_eq]
  exact Finset.sum_congr rfl fun id _ => by rw [alike.output_eq]

theorem count_input_eq
    (alike : Alike trial other)
    (point : Endpoint)
    (signal : Signal) :
    Frame.count (other.circuit.input other.board point) signal =
      Frame.count (trial.circuit.input trial.board point) signal := by
  rw [Circuit.count_input alike.sound, Circuit.count_input alike.otherSound, alike.value_eq,
    alike.value_eq]

/-- Combinators read nothing of their input but the counts of signals. -/
theorem nextOutput_eq
    (alike : Alike trial other)
    (id : Nat) :
    other.circuit.nextOutput other.board id = trial.circuit.nextOutput trial.board id := by
  have sameInput : Frame.count (other.circuit.input other.board (other.board.input id)) =
      Frame.count (trial.circuit.input trial.board (trial.board.input id)) :=
    funext (alike.count_input_eq (trial.board.input id))
  have sameOperand (operand : Operand) :
      Circuit.operandValue (other.circuit.input other.board (other.board.input id)) operand =
        Circuit.operandValue (trial.circuit.input trial.board (trial.board.input id)) operand := by
    cases operand with
    | signal read => exact congrFun sameInput read
    | constant value => rfl
  unfold Circuit.nextOutput
  rw [alike.entity_eq, alike.drivers_eq]
  split
  · rfl
  · simp only [Circuit.deciderOutput, sameInput, sameOperand]
  · simp only [Circuit.arithmeticOutput, sameInput, sameOperand]
  · rfl

/-! ## Moves -/

theorem step
    (alike : Alike trial other) :
    Alike (trial.perform .step) (other.perform .step) where
  entities_eq := alike.entities_eq
  spanned := alike.spanned
  permuted := alike.permuted
  drivers_eq := by
    have sameAsked : other.circuit.isAsked other.board = trial.circuit.isAsked trial.board := by
      funext driver
      unfold Circuit.isAsked
      rw [alike.entity_eq, alike.permuted.contains_eq]
    simp only [perform, Circuit.step, alike.drivers_eq, sameAsked]
  sound := alike.sound.step _
  otherSound := alike.otherSound.step _
  output_eq id := by
    by_cases member : id ∈ trial.circuit.members
    · exact (Circuit.output_step alike.otherSound.sized _ (alike.permuted.mem_iff.mp member)).trans
        ((alike.nextOutput_eq id).trans (Circuit.output_step alike.sound.sized _ member).symm)
    · have absent : id ∉ other.circuit.members := fun present =>
        member (alike.permuted.mem_iff.mpr present)
      have silent : (trial.circuit.step trial.board).output id = SignalMap.empty :=
        Circuit.output_eq_empty member
      have otherSilent : (other.circuit.step other.board).output id = SignalMap.empty :=
        Circuit.output_eq_empty absent
      exact otherSilent.trans silent.symm

/-- Connections that list the same endpoints keep trials alike. -/
theorem connect
    (alike : Alike trial other)
    {points others : List (Option Endpoint)}
    (color : ColorCode)
    (permuted : points.Perm others) :
    Alike (trial.perform (.connect ⟨color, points⟩)) (other.perform (.connect ⟨color, others⟩)) where
  entities_eq := by
    simp only [perform, entities_attempt, alike.entities_eq]
  spanned := by
    obtain ⟨wires, spans, otherSpans⟩ := alike.spanned
    have after := spans_attempt otherSpans ⟨color, others⟩
    refine ⟨_, spans_attempt spans ⟨color, points⟩, after.tidy, ?_⟩
    intro asked first second
    rw [← laid_append_wires color permuted]
    exact after.joined_iff
  permuted := alike.permuted
  drivers_eq := alike.drivers_eq
  sound := alike.sound
  otherSound := alike.otherSound
  output_eq := alike.output_eq

/-- Circuits of the same members start alike, or none of them starts. -/
theorem simulate
    (alike : Alike trial other)
    {members others : List Nat}
    (permuted : members.Perm others)
    (workers otherWorkers : Int) :
    Alike (trial.perform (.simulate members workers))
      (other.perform (.simulate others otherWorkers)) := by
  have startsToo : (∃ circuit, Circuit.ofEntities trial.board workers members = .ok circuit) ↔
      ∃ circuit, Circuit.ofEntities other.board otherWorkers others = .ok circuit := by
    have sameEmpty : members = [] ↔ others = [] := by
      rw [← List.length_eq_zero_iff, permuted.length_eq, List.length_eq_zero_iff]
    simp only [Circuit.ofEntities_eq_ok_iff, exists_and_left, exists_eq, and_true, ne_eq, sameEmpty,
      permuted.nodup_iff, permuted.mem_iff, alike.entity_eq]
  simp only [perform]
  split
  · rename_i circuit started
    obtain ⟨otherCircuit, otherStarted⟩ := startsToo.mp ⟨circuit, started⟩
    rw [otherStarted]
    obtain ⟨-, -, -, rfl⟩ := Circuit.ofEntities_eq_ok_iff.mp started
    obtain ⟨-, -, -, rfl⟩ := Circuit.ofEntities_eq_ok_iff.mp otherStarted
    exact {
      entities_eq := alike.entities_eq
      spanned := alike.spanned
      permuted := permuted
      drivers_eq := rfl
      sound := Circuit.sound_fresh _ _
      otherSound := Circuit.sound_fresh _ _
      output_eq := fun id => by rw [Circuit.output_fresh, Circuit.output_fresh] }
  · rename_i failure refused
    split
    · rename_i circuit started
      obtain ⟨_, startedToo⟩ := startsToo.mpr ⟨circuit, started⟩
      rw [refused] at startedToo
      cases startedToo
    · exact alike

/-- The same move keeps trials alike. -/
theorem perform
    (alike : Alike trial other)
    (move : Move) :
    Alike (trial.perform move) (other.perform move) := by
  cases move with
  | edit change =>
      obtain ⟨wires, spans, otherSpans⟩ := alike.spanned
      exact { alike with
        entities_eq := congrArg change alike.entities_eq
        spanned := ⟨wires, spans.of_wires_eq rfl, otherSpans.of_wires_eq rfl⟩ }
  | connect connection =>
      exact alike.connect connection.color (.refl connection.points)
  | simulate members workers =>
      exact alike.simulate (.refl members) workers workers
  | drive entity signal source =>
      refine { alike with
        drivers_eq := ?_
        sound := ⟨alike.sound.sized, alike.sound.proper⟩
        otherSound := ⟨alike.otherSound.sized, alike.otherSound.proper⟩ }
      simp only [Trial.perform, Circuit.drive, alike.drivers_eq, alike.entity_eq]
  | change index source =>
      refine { alike with
        drivers_eq := ?_
        sound := ⟨alike.sound.sized, alike.sound.proper⟩
        otherSound := ⟨alike.otherSound.sized, alike.otherSound.proper⟩ }
      simp only [Trial.perform, alike.drivers_eq]
  | step =>
      exact alike.step

theorem performAll
    (alike : Alike trial other)
    (moves : List Move) :
    Alike (trial.performAll moves) (other.performAll moves) := by
  induction moves generalizing trial other with
  | nil =>
      exact alike
  | cons move rest inductionHypothesis =>
      exact inductionHypothesis (alike.perform move)

/-- Connections commute. -/
theorem connect_comm
    (alike : Alike trial trial)
    (first second : Connection) :
    Alike ((trial.perform (.connect first)).perform (.connect second))
      ((trial.perform (.connect second)).perform (.connect first)) := by
  obtain ⟨wires, spans, -⟩ := alike.spanned
  refine { alike with
    entities_eq := by simp only [Trial.perform, entities_attempt]
    spanned := ⟨_, spans_attempt (spans_attempt spans first) second,
      (spans_attempt (spans_attempt spans second) first).congr ?_⟩ }
  intro wire
  simp only [List.mem_append]
  tauto

/-- A connection can as well be made after a move that is no step. -/
theorem delay
    (alike : Alike trial trial)
    (connection : Connection)
    {move : Move}
    (noStep : move ≠ .step) :
    Alike ((trial.perform (.connect connection)).perform move)
      ((trial.perform move).perform (.connect connection)) := by
  have afterwards := (alike.perform (.connect connection)).perform move
  have sameEntity (id : Nat) :
      (trial.board.attempt connection).entity id = trial.board.entity id := by
    rw [Board.entity, Board.entity, entities_attempt]
  cases move with
  | edit change =>
      obtain ⟨wires, spans, -⟩ := alike.spanned
      have edited : (trial.perform (.edit change)).board.Spans wires := spans.of_wires_eq rfl
      exact { alike with
        entities_eq := by simp only [Trial.perform, entities_attempt]
        spanned := ⟨_, (spans_attempt spans connection).of_wires_eq rfl,
          spans_attempt edited connection⟩ }
  | connect second =>
      exact alike.connect_comm connection second
  | simulate members workers =>
      have sameTrial : (trial.perform (.simulate members workers)).perform (.connect connection) =
          (trial.perform (.connect connection)).perform (.simulate members workers) := by
        simp only [Trial.perform, Circuit.ofEntities_congr sameEntity]
        split
        · rfl
        · rfl
      rwa [sameTrial]
  | drive entity signal source =>
      simpa only [Trial.perform, Circuit.drive, sameEntity] using afterwards
  | change index source =>
      exact afterwards
  | step =>
      exact absurd rfl noStep

end Alike

/-- Rearranged moves lead from trials that are alike to trials that are alike. -/
theorem Rearranged.alike
    {moves others : List Move}
    (rearranged : Rearranged moves others)
    {trial other : Trial}
    (alike : Alike trial other) :
    Alike (trial.performAll moves) (other.performAll others) := by
  induction rearranged generalizing trial other with
  | refl moves =>
      exact alike.performAll moves
  | symm _ inductionHypothesis =>
      exact (inductionHypothesis alike.symm).symm
  | trans _ _ first second =>
      exact (first alike.rfl_left).trans (second alike)
  | cons move _ inductionHypothesis =>
      exact inductionHypothesis (alike.perform move)
  | turn color permuted moves =>
      exact (alike.connect color permuted).performAll moves
  | delay connection move noStep moves =>
      exact ((alike.rfl_left.delay connection noStep).trans
        ((alike.perform _).perform _)).performAll moves
  | relist permuted workers otherWorkers moves =>
      exact (alike.simulate permuted workers otherWorkers).performAll moves

/-- At the start nothing is wired and nothing is put out. -/
theorem alike_empty : Alike {} {} where
  entities_eq := rfl
  spanned := ⟨[], Board.spans_of_unwired rfl, Board.spans_of_unwired rfl⟩
  permuted := .refl _
  drivers_eq := rfl
  sound := Circuit.sound_fresh _ _
  otherSound := Circuit.sound_fresh _ _
  output_eq _ := rfl

/-- Whatever was done, a value is the sum of the outputs that wires join to its endpoint, zero where
there is no wire, and no output holds a zero. Doing the same in another order, as far as connections,
their endpoints and the members of a circuit go, gives the same outputs and the same values. -/
theorem outputs_depend_on_wire_graph
    (moves : List Move) :
    let trial := performAll {} moves
    (∀ point color signal,
      trial.circuit.value trial.board point color signal =
        ∑ id ∈ trial.circuit.sources trial.board color point,
          Frame.count (trial.circuit.output id) signal) ∧
    (∀ point color signal, trial.board.network? color point = none →
      trial.circuit.value trial.board point color signal = 0) ∧
    (∀ id signal, (trial.circuit.output id).find? signal ≠ some 0) ∧
    ∀ others, Rearranged moves others →
      let other := performAll {} others
      trial.circuit.members.Perm other.circuit.members ∧
      (∀ id, other.circuit.output id = trial.circuit.output id) ∧
      ∀ point color signal,
        other.circuit.value other.board point color signal =
          trial.circuit.value trial.board point color signal := by
  intro trial
  have alike : Alike trial trial := alike_empty.performAll moves
  refine ⟨?_, ?_, ?_, ?_⟩
  · intro point color signal
    obtain ⟨wires, spans, -⟩ := alike.spanned
    exact Circuit.value_eq_sum alike.sound spans.tidy point color signal
  · intro point color signal unwired
    rw [Circuit.value, unwired]
    rfl
  · intro id
    exact (alike.sound.proper_output id).nonzero
  · intro others rearranged other
    have otherAlike : Alike trial other := rearranged.alike alike_empty
    exact ⟨otherAlike.permuted, otherAlike.output_eq, otherAlike.value_eq⟩

/-- Two constants and an adder. -/
def constantsAndAdder : Move :=
  .edit fun _ => #[.ofBody (.ofCount 2147483647), .ofBody (.ofCount 1),
    .ofBody (.arithmetic ⟨.value, .constant 0, .add, .value⟩)]

/-- The adder is fed by the two constants and by itself. -/
def loop (count : Nat) : List Move :=
  constantsAndAdder ::
    .connect ⟨.red, [some ⟨0, .one⟩, some ⟨2, .one⟩]⟩ ::
    .connect ⟨.red, [some ⟨1, .one⟩, some ⟨2, .two⟩, some ⟨2, .one⟩]⟩ ::
    .simulate [0, 1, 2] 0 :: List.replicate count .step

/-- The same in another order, with three workers. -/
def turnedLoop (count : Nat) : List Move :=
  constantsAndAdder ::
    .connect ⟨.red, [some ⟨2, .one⟩, some ⟨2, .two⟩, some ⟨1, .one⟩]⟩ ::
    .connect ⟨.red, [some ⟨0, .one⟩, some ⟨2, .one⟩]⟩ ::
    .simulate [2, 0, 1] 3 :: List.replicate count .step

theorem rearranged_loop
    (count : Nat) :
    Rearranged (loop count) (turnedLoop count) := by
  refine .cons _ (.trans (.of_perm (.swap _ _ []) _) ?_)
  refine .trans (.turn _ (List.reverse_perm _).symm _) (.cons _ (.cons _ ?_))
  exact .relist (by decide) 0 3 _

/-- The constants wrap around in the second step, and the adder cancels them in the third one. -/
theorem outputs_depend_on_wire_graph_loop :
    Rearranged (loop 2) (turnedLoop 2) ∧
    (performAll {} (turnedLoop 2)).circuit.output 2 = Frame.single .value (-2147483648) ∧
    (performAll {} (turnedLoop 3)).circuit.output 2 = SignalMap.empty := by
  refine ⟨rearranged_loop 2, ?_, ?_⟩
  · obtain ⟨-, -, -, same⟩ := outputs_depend_on_wire_graph (loop 2)
    rw [(same _ (rearranged_loop 2)).2.1]
    decide +kernel
  · obtain ⟨-, -, -, same⟩ := outputs_depend_on_wire_graph (loop 3)
    rw [(same _ (rearranged_loop 3)).2.1]
    decide +kernel

end Trial

end CircuitNetwork
