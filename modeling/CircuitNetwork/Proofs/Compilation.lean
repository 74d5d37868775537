import CircuitNetwork.Proofs.Bench

namespace CircuitNetwork.Design

/-!
# Cells compute their formulas

An output that has been connected shows the value of its formula: from whatever
state a bench is in, once its inputs are held for one step, and for two more steps
for each cell on the longest way to the output.
-/

open Relation

variable {design connected later : Design}

/-- A wired output shows what the producer of its vector puts out. -/
theorem Compiled.read_eq_shown
    (compiled : design.Compiled)
    {circuit : Circuit}
    (simulated : design.Simulated circuit)
    {output : Nat}
    (done : (design.node output).wiring = .done none)
    {bits : List Bit}
    {terminal : Nat}
    (isOutput : (design.node output).kind = .output bits terminal)
    {producer : Nat}
    (found : design.table.find? bits = some (some producer)) :
    Bench.read circuit design.board ⟨terminal, .one⟩ = design.shown circuit producer .value := by
  have stages := congrArg NodeKind.stages isOutput
  obtain ⟨point, -, joined⟩ := compiled.joined_of_tie done stages List.mem_cons_self rfl found
  rw [Bench.read_eq_value_red joined]
  exact compiled.value_of_tie simulated done stages List.mem_cons_self rfl found .value

/-- Connecting an output wires it, and its endpoint is its terminal. -/
theorem Standing.output_of_connect
    (standing : design.Standing)
    {output : Nat}
    {bits : List Bit}
    {terminal : Nat}
    (isOutput : (design.node output).kind = .output bits terminal)
    {point : Endpoint}
    (connects : Design.connect resolve output design = .ok (some point) connected) :
    (connected.node output).wiring = .done none ∧ point = ⟨terminal, .one⟩ := by
  have formed := standing.coherent.formed
  have inRange := inRange_of_kind_eq isOutput rfl
  have ensured := connect_ensures formed inRange standing.quiet
  rw [connects] at ensured
  obtain ⟨passes, done, returned⟩ := ensured
  have kind := ((passes.steps.follows formed).grows.kind_eq inRange).trans isOutput
  have target : connected.wiredNode output = output := by
    rw [wiredNode, kind]
  rw [target] at done
  rw [kind] at returned
  exact ⟨done, Option.some.inj returned⟩

/-- From every state that a bench can reach, an output that was connected shows the value of the
formula that its vector denotes in the netlist, as soon as the inputs have been held for long
enough. -/
theorem read_output_eq_formula_value
    {netlist : Netlist}
    (compiles : ReflTransGen Compiles ({}, {}) (netlist, design))
    {output : Nat}
    {bits : List Bit}
    (given : netlist.node? output = some (.output bits))
    {point : Endpoint}
    (connects : connect resolve output design = .ok (some point) connected)
    {final : Netlist}
    (continues : ReflTransGen Compiles (netlist, connected) (final, later))
    (acyclic : final.Acyclic) :
    ∃ formula bench board arena,
      final.Denotes bits formula ∧ (∀ other, final.Denotes bits other → other = formula) ∧
      Bench.build later [some output] (later.board, {}) = .ok bench (board, arena) ∧
      ∀ current, Bench.Reached board bench current →
        ∀ ids : List Nat,
          (∀ id, id ∈ ids ↔ some id ∈ later.table.nodes ∧ (later.node id).kind.isInput) →
        ∀ values : Nat → Int32,
          ∃ held, current.setAll ids values = .ok held ∧
            ∀ steps, 1 + 2 * formula.depth ≤ steps →
              Bench.read (held.circuit.run board steps) board point = formula.value values := by
  -- What is known of the design while it is built, up to the connection and after it.
  obtain ⟨built, compiledBefore, faithfulBefore⟩ :=
    compiled_of_compiles .empty .empty .empty compiles
  obtain ⟨inRange, terminal, isOutput⟩ := faithfulBefore.fits given
  have standing : design.Standing := Built.standing built
  have connecting : Compiles (netlist, design) (netlist, connected) := by
    have leaves : after (connect resolve output) design = connected := by rw [after, connects]
    exact leaves ▸ .connect inRange
  have step := connecting.builds faithfulBefore standing
  obtain ⟨standingConnected, keptConnected⟩ := step.standing standing
  obtain ⟨builds, compiled, faithful⟩ := compiled_of_compiles standingConnected
    (connecting.compiled faithfulBefore standing compiledBefore)
    (connecting.faithful faithfulBefore standing) continues
  have acyclicLater := faithful.acyclic compiled acyclic
  have kept := (standing_of_builds standingConnected builds).2
  have keptAll := keptConnected.trans kept
  have unnumbered : later.board.Unnumbered := Built.unnumbered ((built.tail step).trans builds)
  -- The output is wired, and so is the producer of its vector.
  obtain ⟨doneConnected, rfl⟩ := standing.output_of_connect isOutput connects
  have done := kept.done_eq doneConnected
  have kind := (keptAll.kind_eq inRange).trans isOutput
  have asked : later.Requests output { label := "output " ++ Bit.vectorText bits, bits := bits } := by
    rw [Requests, kind]
    exact ⟨_, List.mem_cons_self, List.mem_cons_self⟩
  obtain ⟨producer, found, -, producerDone⟩ := compiled.exists_producer acyclicLater done asked
  obtain ⟨formula, denotes⟩ := compiled.exists_denotes faithful acyclicLater producerDone found
  obtain ⟨bench, board, arena, buildsBench, alike, ready⟩ := Bench.exists_build compiled unnumbered
    (Nat.lt_of_lt_of_le inRange keptAll.size_le) kind
  have compiledThere := compiled.withBoard alike
  refine ⟨formula, bench, board, arena, denotes, fun _ => denotes.unique, buildsBench, ?_⟩
  intro current reached ids primary values
  obtain ⟨held, sets, readyHeld, holds⟩ := (ready.reached reached).exists_setAll
    compiledThere.coherent.grounded (fun id member => (primary id).mp member) values
  refine ⟨held, sets, fun steps enough => ?_⟩
  have isHeld {asked : List Bit} {id : Nat} {own : List Bit} {constant : Nat}
      (askedFound : later.table.find? asked = some (some id))
      (isInput : (later.node id).kind = .input own constant) :
      held.circuit.Holds constant (values id) := by
    have member := Table.mem_nodes_of_find? askedFound
    have isPrimary : (later.node id).kind.isInput := by
      rw [isInput]
      rfl
    exact holds member isInput (.inl ((primary id).mpr ⟨member, isPrimary⟩))
  calc Bench.read (held.circuit.run board steps) board ⟨terminal, .one⟩
      = shown { later with board := board } (held.circuit.run board steps) producer .value :=
        compiledThere.read_eq_shown (readyHeld.simulated.run steps) done kind found
    _ = formula.value values :=
        compiledThere.shown_eq_value (faithful.withBoard alike) acyclicLater readyHeld.simulated
          isHeld denotes found producerDone enough

/-- Add several nodes to nothing, and note what was asked for. -/
def recordAll (additions : List Addition) : Netlist × Design :=
  additions.foldl (fun state addition => addition.record addition.make state) ({}, {})

/-- Register the producers of several bit vectors. -/
def registerAll (state : Netlist × Design) (entries : List (List Bit × Nat)) : Netlist × Design :=
  entries.foldl
    (fun state entry =>
      (state.1.enter entry.1 entry.2, after (register entry.1 (some entry.2)) state.2))
    state

/-- Adding nodes begins no wiring. -/
theorem compiles_recordAll
    (additions : List Addition) :
    ReflTransGen Compiles ({}, {}) (recordAll additions) ∧
      ∀ id, ((recordAll additions).2.node id).wiring = .idle := by
  refine List.foldlRecOn (motive := fun state => ReflTransGen Compiles ({}, {}) state ∧
    ∀ id, (state.2.node id).wiring = .idle) additions _ ⟨.refl, Unwired.empty.idle⟩ ?_
  rintro state ⟨compiles, idle⟩ addition -
  refine ⟨compiles.tail (.add addition), fun id => ?_⟩
  rw [addition.snd_record]
  refine addition.preserves
    (motive := fun later => (later.node id).wiring = .idle) (idle id) ?_
  intro middle later before pushes
  rw [pushes.wiring_eq, before]

/-- As long as nothing has been wired, producers may be registered in any way. -/
theorem compiles_registerAll
    {state : Netlist × Design}
    (idle : ∀ id, (state.2.node id).wiring = .idle)
    (entries : List (List Bit × Nat))
    (computes : ∀ entry ∈ entries, state.1.Computes entry.2) :
    ReflTransGen Compiles state (registerAll state entries) := by
  induction entries generalizing state with
  | nil =>
      exact .refl
  | cons entry rest inductionHypothesis =>
      obtain ⟨computesFirst, computesRest⟩ := List.forall_mem_cons.mp computes
      exact ReflTransGen.head (.register computesFirst (.inr idle))
        (inductionHypothesis idle computesRest)

/-- No cell depends on itself if all of them read what is produced by nodes that came before. -/
theorem Netlist.acyclic_of_lower
    {netlist : Netlist}
    (lower :
      ∀ node ∈ netlist.nodes, ∀ bits ∈ node.2.operands, ∀ entry ∈ netlist.producers,
        entry.1 = bits → entry.2 < node.1) :
    netlist.Acyclic := by
  have mem_of_lookup {α β : Type} [BEq α] [LawfulBEq α] {entries : List (α × β)} {key : α}
      {value : β} (found : entries.lookup key = some value) : (key, value) ∈ entries := by
    obtain ⟨before, behind, rfl, -⟩ := List.lookup_eq_some_iff.mp found
    simp
  have descends {id target : Nat} (needs : netlist.Needs id target) : target < id := by
    obtain ⟨addition, bits, given, operand, isProducer⟩ := needs
    exact lower _ (mem_of_lookup given) bits operand _ (mem_of_lookup isProducer) rfl
  intro id cycle
  have below {target : Nat} (path : TransGen netlist.Needs id target) : target < id := by
    induction path with
    | single needs => exact descends needs
    | tail _ needs inductionHypothesis => exact (descends needs).trans inductionHypothesis
  exact Nat.lt_irrefl _ (below cycle)

/-! ## A choice between a sum and a comparison -/

/-- Three inputs, the successor of the first, a comparison of the first two, a choice between these
by the third, and an output. -/
def choiceNodes : List Addition := [
  .input [.net 2], .input [.net 3], .input [.net 4],
  .operation .add [.net 2] [.one], .comparison .less [.net 2] [.net 3],
  .mux [.net 5] [.net 6] [.net 4], .output [.net 7]]

/-- The producers of all nets. -/
def choiceEntries : List (List Bit × Nat) :=
  [([.net 2], 0), ([.net 3], 1), ([.net 4], 2), ([.net 5], 3), ([.net 6], 4), ([.net 7], 5)]

/-- The nodes, with all producers registered. -/
def choice : Netlist × Design :=
  registerAll (recordAll choiceNodes) choiceEntries

/-- The output has been connected, for which a literal was added. -/
def choiceWired : Design :=
  after (connect resolve 6) choice.2

/-- What the output is to show. -/
def choiceFormula : Formula :=
  .mux (.operation .add (.input 0) (.literal [.one])) (.comparison .less (.input 0) (.input 1))
    (.input 2)

/-- The nodes are noted one after another. -/
theorem nodes_choice : choice.1.nodes = ((List.range 7).zip choiceNodes).reverse :=
  rfl

theorem producers_choice : choice.1.producers = choiceEntries.reverse :=
  rfl

theorem compiles_choice : ReflTransGen Compiles ({}, {}) choice := by
  obtain ⟨compiles, idle⟩ := compiles_recordAll choiceNodes
  refine compiles.trans (compiles_registerAll idle choiceEntries fun entry listed => ?_)
  simp only [choiceEntries, List.mem_cons, List.not_mem_nil, or_false] at listed
  rcases listed with rfl | rfl | rfl | rfl | rfl | rfl <;> exact ⟨_, rfl, rfl⟩

theorem acyclic_choice : choice.1.Acyclic := by
  refine Netlist.acyclic_of_lower ?_
  rw [nodes_choice, producers_choice]
  decide

theorem denotes_choice : choice.1.Denotes [.net 7] choiceFormula := by
  have first : choice.1.Denotes [.net 2] (.input 0) := .input rfl rfl
  have second : choice.1.Denotes [.net 3] (.input 1) := .input rfl rfl
  have third : choice.1.Denotes [.net 4] (.input 2) := .input rfl rfl
  have literal : choice.1.Denotes [.one] (.literal [.one]) := .literal rfl (by simp) (by decide)
  have sum : choice.1.Denotes [.net 5] (.operation .add (.input 0) (.literal [.one])) :=
    .operation rfl rfl first literal
  have comparison : choice.1.Denotes [.net 6] (.comparison .less (.input 0) (.input 1)) :=
    .comparison rfl rfl first second
  exact .mux rfl rfl sum comparison third

theorem returns_choice : (connect resolve 6).run' choice.2 = some (some ⟨10, .one⟩) :=
  rfl

/-- The literal comes last in the table. -/
theorem nodes_choiceWired :
    choiceWired.table.nodes = [some 0, some 1, some 2, some 3, some 4, some 5, some 7] :=
  rfl

theorem isInput_choiceWired_iff : ∀ id < 8, (choiceWired.node id).kind.isInput ↔ id < 3 := by
  decide

/-- The output shows the successor of the first input or a comparison, five steps after the inputs
have been set. -/
theorem read_output_eq_formula_value_choice :
    ∃ bench board arena,
      Bench.build choiceWired [some 6] (choiceWired.board, {}) = .ok bench (board, arena) ∧
      ∀ current, Bench.Reached board bench current → ∀ values : Nat → Int32,
        ∃ held, current.setAll [0, 1, 2] values = .ok held ∧
          ∀ steps, 5 ≤ steps →
            Bench.read (held.circuit.run board steps) board ⟨10, .one⟩ =
              if values 2 = 0 then values 0 + 1 else if values 0 < values 1 then 1 else 0 := by
  obtain ⟨formula, bench, board, arena, -, unique, builds, reads⟩ :=
    read_output_eq_formula_value compiles_choice rfl (eq_ok_after returns_choice) .refl
      acyclic_choice
  cases unique _ denotes_choice
  have primary (id : Nat) :
      id ∈ [0, 1, 2] ↔ some id ∈ choiceWired.table.nodes ∧ (choiceWired.node id).kind.isInput := by
    rw [nodes_choiceWired]
    constructor
    · intro member
      have isLow : id < 3 := by
        simp only [List.mem_cons, List.not_mem_nil, or_false] at member
        omega
      refine ⟨?_, (isInput_choiceWired_iff id (by omega)).mpr isLow⟩
      simp only [List.mem_cons, Option.some.injEq]
      omega
    · rintro ⟨member, isInput⟩
      simp only [List.mem_cons, List.not_mem_nil, or_false, Option.some.injEq] at member ⊢
      have isLow := (isInput_choiceWired_iff id (by omega)).mp isInput
      omega
  refine ⟨bench, board, arena, builds, fun current reached values => ?_⟩
  obtain ⟨held, sets, shows⟩ := reads current reached [0, 1, 2] primary values
  refine ⟨held, sets, fun steps enough => ?_⟩
  rw [shows steps enough]
  by_cases isLess : values 0 < values 1
  · simp [choiceFormula, Formula.value, Comparator.holds, Operator.apply, Bit.word, isLess]
  · simp [choiceFormula, Formula.value, Comparator.holds, Operator.apply, Bit.word, isLess]

end CircuitNetwork.Design
