import CircuitNetwork.Proofs.Circuit.Drivers
import CircuitNetwork.Proofs.Circuit.Gates
import CircuitNetwork.Proofs.Synthesis.Compiled
import CircuitNetwork.Proofs.Synthesis.Values

namespace CircuitNetwork.Design

/-!
# What cells compute

A cell answers two steps after its operands: in the first step its transformer
moves one operand to the control signal, and in the second one the combinators
read both. So after one step for the inputs and two more for every cell on the way,
a vector carries the value of its formula, whatever state the simulation was in.
-/

variable {design : Design} {circuit : Circuit}

/-- Only the value signals of primary inputs are driven. -/
def InputSignal (design : Design) (entity : Nat) (signal : Signal) : Prop :=
  signal = .value ∧
    ∃ id bits, id < design.nodes.size ∧ (design.node id).kind = .input bits entity

/-- A simulation in which all producers of a table take part and inputs alone are driven. -/
structure Simulated (design : Design) (circuit : Circuit) : Prop where
  reached : circuit.Reached design.board design.InputSignal
  members :
    ∀ {bits id}, design.table.find? bits = some (some id) →
      ∀ entity ∈ (design.node id).kind.entities, entity ∈ circuit.members

/-- What a node puts out on red wires. -/
def shown (design : Design) (circuit : Circuit) (id : Nat) (signal : Signal) : Int32 :=
  ∑ entity ∈ design.heads .red id, Frame.count (circuit.output entity) signal

namespace Simulated

theorem run
    (simulated : design.Simulated circuit)
    (count : Nat) :
    design.Simulated (circuit.run design.board count) where
  reached := simulated.reached.run count
  members found entity member := by
    rw [Circuit.members_run]
    exact simulated.members found entity member

theorem regular
    (simulated : design.Simulated circuit)
    (grounded : design.Grounded) :
    circuit.Regular design.board := by
  refine simulated.reached.regular ?_
  rintro entity signal ⟨rfl, id, bits, inRange, isInput⟩ isOn filters body
  have stands := grounded.stands inRange
  rw [isInput] at stands
  cases stands.symm.trans body
  simp

theorem muted
    (simulated : design.Simulated circuit)
    (grounded : design.Grounded) :
    design.Muted circuit := by
  intro id inRange bits terminal isOutput
  have stands := grounded.stands inRange
  rw [isOutput] at stands
  refine simulated.reached.output_eq_empty_of_undriven stands ?_
  rintro signal ⟨-, other, otherBits, otherInRange, isInput⟩
  have isConstant : terminal ∈ (design.node other).kind.entities := by
    simp [isInput, NodeKind.entities]
  have isTerminal : terminal ∈ (design.node id).kind.entities := by
    simp [isOutput, NodeKind.entities]
  rw [grounded.apart otherInRange inRange isConstant isTerminal, isOutput] at isInput
  cases isInput

end Simulated

/-- Inputs, literals and cells have values of their own. -/
theorem Source.isProducer
    {bits : List Bit}
    {id : Nat}
    (source : design.Source bits id) :
    (design.node id).kind.isProducer := by
  cases source with
  | input isInput => cases isKind : (design.node id).kind <;> simp_all [NodeKind.isInput]; rfl
  | literal _ isLiteral =>
      rw [isLiteral]
      rfl
  | rule isRule =>
      unfold rule? at isRule
      cases isKind : (design.node id).kind <;> simp_all [NodeKind.isProducer]

/-- The entities of a cell are what its rule says. -/
theorem Grounded.kind_of_rule
    (grounded : design.Grounded)
    {id : Nat}
    (inRange : id < design.nodes.size)
    {rule : Rule}
    (isRule : design.rule? id = some rule) :
    match rule with
    | .comparison comparator a b => ∃ label first, (design.node id).kind = .gate label a b first ∧
        (design.board.entity (first + 1)).body = comparison comparator
    | .operation operator a b => ∃ label first, (design.node id).kind = .gate label a b first ∧
        (design.board.entity (first + 1)).body = operation operator
    | .mux a b select => ∃ first, (design.node id).kind = .mux a b select first := by
  have stands := grounded.stands inRange
  rcases rule_cases isRule with ⟨label, a, b, first, condition, isGate, body, rfl⟩ |
    ⟨label, a, b, first, condition, isGate, body, rfl⟩ | ⟨a, b, select, first, isMux, rfl⟩
  · rw [isGate] at stands
    obtain ⟨-, ⟨comparator, isComparison⟩ | ⟨operator, isOperation⟩⟩ := stands
    · cases body.symm.trans isComparison
      exact ⟨label, first, isGate, isComparison⟩
    · cases body.symm.trans isOperation
  · rw [isGate] at stands
    obtain ⟨-, ⟨comparator, isComparison⟩ | ⟨operator, isOperation⟩⟩ := stands
    · cases body.symm.trans isComparison
    · cases body.symm.trans isOperation
      exact ⟨label, first, isGate, isOperation⟩
  · exact ⟨first, isMux⟩

/-- Producers put out nothing on the control signal. -/
theorem Compiled.shown_control
    (compiled : design.Compiled)
    (simulated : design.Simulated circuit)
    {bits : List Bit}
    {id : Nat}
    (found : design.table.find? bits = some (some id)) :
    design.shown circuit id .control = 0 := by
  have grounded := compiled.coherent.grounded
  have stands := grounded.stands (compiled.coherent.formed.registered found)
  have produces := (compiled.sources found).isProducer
  refine Finset.sum_eq_zero fun entity isHead => ?_
  refine (simulated.regular grounded).within entity .control ?_
  unfold heads at isHead
  cases isKind : (design.node id).kind with
  | input own constant =>
      simp only [isKind, Finset.mem_singleton] at isHead stands
      rw [isHead, stands]
      decide
  | literal constant =>
      simp only [isKind, Finset.mem_singleton] at isHead stands
      obtain ⟨count, body⟩ := stands
      rw [isHead, body]
      simp [Body.ofCount, Body.ofFilters, Body.outputs, Signal.value_ne_control.symm]
  | gate label a b first =>
      simp only [isKind, Finset.mem_singleton] at isHead stands
      obtain ⟨-, ⟨comparator, body⟩ | ⟨operator, body⟩⟩ := stands
      · rw [isHead, body]
        simp [comparison, Body.outputs, Signal.value_ne_control.symm]
      · rw [isHead, body]
        simp [operation, Body.outputs, Signal.value_ne_control.symm]
  | mux a b select first =>
      simp only [isKind, Finset.mem_insert, Finset.mem_singleton] at isHead stands
      rcases isHead with rfl | rfl
      · rw [stands.2.1]
        decide
      · rw [stands.2.2]
        decide
  | readPort memory index own point =>
      cases compiled.sources found with
      | input isInput => simp [isKind, NodeKind.isInput] at isInput
      | literal _ isLiteral => simp [isKind] at isLiteral
      | rule isRule => simp [rule?, isKind] at isRule
  | tap | output | memory =>
      rw [isKind] at produces
      cases produces

/-- A wire leads to a wired node from the producer of its operand. -/
theorem Compiled.joined_of_tie
    (compiled : design.Compiled)
    {id : Nat}
    (done : (design.node id).wiring = .done none)
    {stage : Stage}
    (stages : (design.node id).kind.stages = [stage])
    {sink : Endpoint}
    {index : Nat}
    (laid : ⟨.red, index, sink⟩ ∈ stage.ties)
    {request : Request}
    (asked : stage.requests[index]? = some request)
    {producer : Nat}
    (found : design.table.find? request.bits = some (some producer)) :
    ∃ point, (design.node producer).kind.outlet = some point ∧
      design.board.Joined .red point sink := by
  have settled := compiled.settled done
  have planned : stage ∈ (design.node id).kind.stages := by simp [stages]
  obtain ⟨answer, point, resolved⟩ :=
    settled.resolved request ⟨stage, planned, List.mem_of_getElem? asked⟩
  have same : answer = producer :=
    Option.some.inj (Option.some.inj (resolved.1.symm.trans found))
  subst same
  have carried := settled.carried _ (.tie planned laid asked resolved)
  exact ⟨point, resolved.2.1,
    carried point List.mem_cons_self sink (List.mem_cons_of_mem _ List.mem_cons_self)⟩

/-- At the end of its wire a wired node reads what the producer of its operand puts out. -/
theorem Compiled.value_of_tie
    (compiled : design.Compiled)
    (simulated : design.Simulated circuit)
    {id : Nat}
    (done : (design.node id).wiring = .done none)
    {stage : Stage}
    (stages : (design.node id).kind.stages = [stage])
    {sink : Endpoint}
    {index : Nat}
    (laid : ⟨.red, index, sink⟩ ∈ stage.ties)
    {request : Request}
    (asked : stage.requests[index]? = some request)
    {producer : Nat}
    (found : design.table.find? request.bits = some (some producer))
    (signal : Signal) :
    circuit.value design.board sink .red signal = design.shown circuit producer signal := by
  obtain ⟨point, outlet, joined⟩ := compiled.joined_of_tie done stages laid asked found
  exact compiled.coherent.value_of_outlet simulated.reached.sound
    (simulated.muted compiled.coherent.grounded) (compiled.coherent.formed.registered found)
    (compiled.sources found).isProducer outlet joined signal

/-- A combinator of a cell reads its own operand as a value, and as control what comes from the
transformer. -/
theorem Compiled.level_reader
    (compiled : design.Compiled)
    (simulated : design.Simulated circuit)
    {id : Nat}
    (inRange : id < design.nodes.size)
    {core : List Endpoint}
    (isCore : (design.node id).kind.IsCore .green core)
    {source reader : Nat}
    (body : (design.board.entity source).body = transformer)
    (outputs : ∀ entity, design.board.output entity ∈ core ↔ entity = source)
    (joined : design.board.Joined .green (design.board.output source) ⟨reader, .one⟩)
    {bits : List Bit}
    {producer : Nat}
    (found : design.table.find? bits = some (some producer))
    (red :
      ∀ signal, circuit.value design.board ⟨reader, .one⟩ .red signal =
        design.shown circuit producer signal) :
    circuit.level design.board reader .value = design.shown circuit producer .value ∧
      circuit.level design.board reader .control =
        Frame.count (circuit.output source) .control := by
  have grounded := compiled.coherent.grounded
  have green (signal : Signal) : circuit.value design.board ⟨reader, .one⟩ .green signal =
      Frame.count (circuit.output source) signal := by
    have outputs' : ∀ entity, design.board.output entity ∈ core ↔ entity ∈ ({source} : Finset Nat) :=
      fun entity => (outputs entity).trans Finset.mem_singleton.symm
    have sum := compiled.coherent.value_eq_sum simulated.reached.sound (simulated.muted grounded)
      inRange isCore outputs' ⟨_, (outputs source).mpr rfl, .inr joined⟩
      (by simpa using joined) signal
    rwa [Finset.sum_singleton] at sum
  have noValue : Frame.count (circuit.output source) .value = 0 := by
    refine (simulated.regular grounded).within source .value ?_
    rw [body]
    decide
  constructor
  · rw [Circuit.level, red, green, noValue, Int32.add_zero]
  · rw [Circuit.level, red, green, compiled.shown_control simulated found, Int32.zero_add]

/-- The transformer of a cell reads its operand, and nothing in green. -/
theorem Compiled.level_transformer
    (compiled : design.Compiled)
    (simulated : design.Simulated circuit)
    {id : Nat}
    (inRange : id < design.nodes.size)
    {first : Nat}
    (isCore : (design.node id).kind.IsCore .green [⟨first, .one⟩])
    (body : (design.board.entity first).body = transformer)
    {producer : Nat}
    (red :
      circuit.value design.board ⟨first, .one⟩ .red .value = design.shown circuit producer .value) :
    circuit.level design.board first .value = design.shown circuit producer .value := by
  have grounded := compiled.coherent.grounded
  have silent : ∀ entity, design.board.output entity ∈ [(⟨first, .one⟩ : Endpoint)] ↔
      entity ∈ (∅ : Finset Nat) := by
    intro entity
    simp only [List.mem_singleton, Board.output, Endpoint.mk.injEq, Finset.notMem_empty, iff_false]
    rintro ⟨rfl, port⟩
    rw [body] at port
    cases port
  have green := compiled.coherent.value_eq_sum simulated.reached.sound (simulated.muted grounded)
    inRange isCore silent ⟨_, List.mem_cons_self, .inl rfl⟩ (by simp) .value
  rw [Circuit.level, red, green, Finset.sum_empty, Int32.add_zero]

/-- What the combinators of a gate read. -/
theorem Compiled.levels_gate
    (compiled : design.Compiled)
    (simulated : design.Simulated circuit)
    {id : Nat}
    (done : (design.node id).wiring = .done none)
    {label : String}
    {a b : List Bit}
    {first : Nat}
    (isGate : (design.node id).kind = .gate label a b first)
    {left right : Nat}
    (foundLeft : design.table.find? a = some (some left))
    (foundRight : design.table.find? b = some (some right)) :
    (circuit.level design.board (first + 1) .value = design.shown circuit left .value ∧
      circuit.level design.board (first + 1) .control =
        Frame.count (circuit.output first) .control) ∧
      circuit.level design.board first .value = design.shown circuit right .value := by
  have coherent := compiled.coherent
  obtain ⟨-, grounded, feeds, laced⟩ := coherent
  have inRange := inRange_of_wiring (show (design.node id).wiring ≠ .idle by simp [done])
  have stands := grounded.stands inRange
  rw [isGate] at stands
  obtain ⟨transforms, combines⟩ := stands
  have secondPort : (design.board.entity (first + 1)).body.outputPort = .two := by
    rcases combines with ⟨comparator, body⟩ | ⟨operator, body⟩ <;> rw [body] <;> rfl
  have firstPort : (design.board.entity first).body.outputPort = .two := by
    rw [transforms]
    rfl
  have stages := congrArg NodeKind.stages isGate
  constructor
  · refine compiled.level_reader simulated inRange
      (isGate ▸ NodeKind.isCore_gate_operand label a b first) transforms ?_ ?_ foundLeft
      fun signal => compiled.value_of_tie simulated done stages List.mem_cons_self rfl foundLeft
        signal
    · intro entity
      simp only [List.mem_cons, List.not_mem_nil, or_false, Board.output, Endpoint.mk.injEq]
      grind
    · refine laced.joined_inner inRange [⟨first, .two⟩, ⟨first + 1, .one⟩] ?_ ?_ ?_
      · simp [isGate, NodeKind.wires, Part.wiresAt, gatePart, Endpoint.shift]
      · simp [Board.output, firstPort]
      · simp
  · exact compiled.level_transformer simulated inRange
      (isGate ▸ NodeKind.isCore_gate_entry label a b first) transforms
      (compiled.value_of_tie simulated done stages
        (List.mem_cons_of_mem _ List.mem_cons_self) rfl foundRight .value)

/-- What the combinators of a multiplexer read. -/
theorem Compiled.levels_mux
    (compiled : design.Compiled)
    (simulated : design.Simulated circuit)
    {id : Nat}
    (done : (design.node id).wiring = .done none)
    {a b select : List Bit}
    {first : Nat}
    (isMux : (design.node id).kind = .mux a b select first)
    {left right choice : Nat}
    (foundLeft : design.table.find? a = some (some left))
    (foundRight : design.table.find? b = some (some right))
    (foundChoice : design.table.find? select = some (some choice)) :
    (circuit.level design.board (first + 1) .value = design.shown circuit left .value ∧
      circuit.level design.board (first + 1) .control =
        Frame.count (circuit.output first) .control) ∧
      (circuit.level design.board (first + 2) .value = design.shown circuit right .value ∧
        circuit.level design.board (first + 2) .control =
          Frame.count (circuit.output first) .control) ∧
      circuit.level design.board first .value = design.shown circuit choice .value := by
  have coherent := compiled.coherent
  obtain ⟨-, grounded, feeds, laced⟩ := coherent
  have inRange := inRange_of_wiring (show (design.node id).wiring ≠ .idle by simp [done])
  have stands := grounded.stands inRange
  rw [isMux] at stands
  obtain ⟨transforms, takesFirst, takesSecond⟩ := stands
  have isCore := NodeKind.isCore_mux_select a b select first
  rw [← isMux] at isCore
  have firstPort : (design.board.entity first).body.outputPort = .two := by
    rw [transforms]
    rfl
  have outputs : ∀ entity, design.board.output entity ∈
      [(⟨first, .two⟩ : Endpoint), ⟨first + 1, .one⟩, ⟨first + 2, .one⟩] ↔ entity = first := by
    have secondPort : (design.board.entity (first + 1)).body.outputPort = .two := by
      rw [takesFirst]
      rfl
    have thirdPort : (design.board.entity (first + 2)).body.outputPort = .two := by
      rw [takesSecond]
      rfl
    intro entity
    simp only [List.mem_cons, List.not_mem_nil, or_false, Board.output, Endpoint.mk.injEq]
    grind
  have joined {reader : Nat} (isReader : reader = first + 1 ∨ reader = first + 2) :
      design.board.Joined .green (design.board.output first) ⟨reader, .one⟩ := by
    refine laced.joined_inner inRange [⟨first, .two⟩, ⟨first + 1, .one⟩, ⟨first + 2, .one⟩] ?_ ?_ ?_
    · simp [isMux, NodeKind.wires, Part.wiresAt, muxPart, Endpoint.shift]
    · simp [Board.output, firstPort]
    · rcases isReader with rfl | rfl <;> simp
  have stages := congrArg NodeKind.stages isMux
  refine ⟨?_, ?_, ?_⟩
  · exact compiled.level_reader simulated inRange isCore transforms outputs (joined (.inl rfl))
      foundLeft fun signal => compiled.value_of_tie simulated done stages
        (List.mem_cons_of_mem _ List.mem_cons_self) rfl foundLeft signal
  · exact compiled.level_reader simulated inRange isCore transforms outputs (joined (.inr rfl))
      foundRight fun signal => compiled.value_of_tie simulated done stages
        (List.mem_cons_of_mem _ (List.mem_cons_of_mem _ List.mem_cons_self)) rfl foundRight signal
  · exact compiled.level_transformer simulated inRange
      (isMux ▸ NodeKind.isCore_mux_entry a b select first) transforms
      (compiled.value_of_tie simulated done stages List.mem_cons_self rfl foundChoice .value)

/-- A transformer passes on, one step later, what it reads. -/
theorem Simulated.count_transformer
    (simulated : design.Simulated circuit)
    {bits : List Bit}
    {id : Nat}
    (found : design.table.find? bits = some (some id))
    {first : Nat}
    (isFirst : first ∈ (design.node id).kind.entities)
    (body : (design.board.entity first).body = transformer)
    (count : Nat) :
    Frame.count ((circuit.run design.board (count + 1)).output first) .control =
      (circuit.run design.board count).level design.board first .value := by
  rw [Circuit.output_run_succ simulated.reached.sound _ count
      (simulated.members found first isFirst),
    Circuit.count_transformer (simulated.run count).reached.sound body, if_pos rfl]

/-- What a gate puts out, by the operands one and two steps before. -/
theorem Compiled.levels_gate_run
    (compiled : design.Compiled)
    (simulated : design.Simulated circuit)
    {bits : List Bit}
    {id : Nat}
    (found : design.table.find? bits = some (some id))
    (done : (design.node id).wiring = .done none)
    {label : String}
    {a b : List Bit}
    {first : Nat}
    (isGate : (design.node id).kind = .gate label a b first)
    {left right : Nat}
    (foundLeft : design.table.find? a = some (some left))
    (foundRight : design.table.find? b = some (some right))
    (count : Nat) :
    design.shown (circuit.run design.board (count + 2)) id .value =
        Frame.count ((circuit.run design.board (count + 1)).nextOutput design.board (first + 1))
          .value ∧
      (circuit.run design.board (count + 1)).level design.board (first + 1) .value =
        design.shown (circuit.run design.board (count + 1)) left .value ∧
      (circuit.run design.board (count + 1)).level design.board (first + 1) .control =
        design.shown (circuit.run design.board count) right .value := by
  have stands := compiled.coherent.grounded.stands (compiled.coherent.formed.registered found)
  rw [isGate] at stands
  have isFirst : first ∈ (design.node id).kind.entities := by simp [isGate, NodeKind.entities]
  have isSecond : first + 1 ∈ (design.node id).kind.entities := by
    simp [isGate, NodeKind.entities]
  have now := compiled.levels_gate (simulated.run (count + 1)) done isGate foundLeft foundRight
  have before := compiled.levels_gate (simulated.run count) done isGate foundLeft foundRight
  refine ⟨?_, now.1.1, ?_⟩
  · have single : design.heads .red id = {first + 1} := by simp [heads, isGate]
    rw [shown, single, Finset.sum_singleton, Circuit.output_run_succ simulated.reached.sound _ _
      (simulated.members found _ isSecond)]
  · rw [now.1.2, simulated.count_transformer found isFirst stands.1, before.2]

/-- A multiplexer shows one of two values, as its selection was two steps before. -/
theorem Compiled.shown_mux_run
    (compiled : design.Compiled)
    (simulated : design.Simulated circuit)
    {bits : List Bit}
    {id : Nat}
    (found : design.table.find? bits = some (some id))
    (done : (design.node id).wiring = .done none)
    {a b select : List Bit}
    {first : Nat}
    (isMux : (design.node id).kind = .mux a b select first)
    {left right choice : Nat}
    (foundLeft : design.table.find? a = some (some left))
    (foundRight : design.table.find? b = some (some right))
    (foundChoice : design.table.find? select = some (some choice))
    (count : Nat) :
    design.shown (circuit.run design.board (count + 2)) id .value =
      if design.shown (circuit.run design.board count) choice .value = 0 then
        design.shown (circuit.run design.board (count + 1)) left .value
      else
        design.shown (circuit.run design.board (count + 1)) right .value := by
  have stands := compiled.coherent.grounded.stands (compiled.coherent.formed.registered found)
  rw [isMux] at stands
  obtain ⟨transforms, takesFirst, takesSecond⟩ := stands
  have isEntity {place : Nat} (isPlace : place ∈ [first, first + 1, first + 2]) :
      place ∈ (design.node id).kind.entities := by
    rw [isMux]
    exact isPlace
  have sound := simulated.reached.sound
  have soundNow := (simulated.run (count + 1)).reached.sound
  obtain ⟨⟨leftValue, leftControl⟩, ⟨rightValue, rightControl⟩, -⟩ :=
    compiled.levels_mux (simulated.run (count + 1)) done isMux foundLeft foundRight foundChoice
  obtain ⟨-, -, before⟩ :=
    compiled.levels_mux (simulated.run count) done isMux foundLeft foundRight foundChoice
  have control := simulated.count_transformer found (isEntity (by simp)) transforms count
  rw [control, before] at leftControl rightControl
  have both : design.heads .red id = {first + 1, first + 2} := by simp [heads, isMux]
  rw [shown, both, Finset.sum_pair (by omega),
    Circuit.output_run_succ sound _ _ (simulated.members found _ (isEntity (by simp))),
    Circuit.output_run_succ sound _ _ (simulated.members found _ (isEntity (by simp))),
    Circuit.count_selector soundNow takesFirst, Circuit.count_selector soundNow takesSecond,
    leftValue, leftControl, rightValue, rightControl]
  -- Exactly one of the two deciders lets its value through.
  by_cases isZero : design.shown (circuit.run design.board count) choice .value = 0
  · simp [isZero, Comparator.holds]
  · simp [isZero, Comparator.holds]

/-- A primary input shows, after each step, the value that it holds. -/
theorem Compiled.shown_input_run
    (compiled : design.Compiled)
    (simulated : design.Simulated circuit)
    {bits own : List Bit}
    {id constant : Nat}
    (found : design.table.find? bits = some (some id))
    (isInput : (design.node id).kind = .input own constant)
    {value : Int32}
    (holds : circuit.Holds constant value)
    (count : Nat) :
    design.shown (circuit.run design.board (count + 1)) id .value = value := by
  have stands := compiled.coherent.grounded.stands (compiled.coherent.formed.registered found)
  rw [isInput] at stands
  have isConstant : constant ∈ (design.node id).kind.entities := by
    simp [isInput, NodeKind.entities]
  have single : design.heads .red id = {constant} := by simp [heads, isInput]
  rw [shown, single, Finset.sum_singleton, Circuit.output_run_succ simulated.reached.sound _ _
    (simulated.members found _ isConstant)]
  exact (holds.run design.board count).count_nextOutput (simulated.run count).reached
    (fun _ driven => driven.1) stands

/-- A literal shows its value after each step. -/
theorem Compiled.shown_literal_run
    (compiled : design.Compiled)
    (simulated : design.Simulated circuit)
    {bits : List Bit}
    {id constant : Nat}
    (found : design.table.find? bits = some (some id))
    (isLiteral : (design.node id).kind = .literal constant)
    (count : Nat) :
    design.shown (circuit.run design.board (count + 1)) id .value = Bit.word bits := by
  have isConstant : constant ∈ (design.node id).kind.entities := by
    simp [isLiteral, NodeKind.entities]
  have body : (design.board.entity constant).body = .ofCount (Bit.word bits) := by
    cases compiled.sources found with
    | input isInput => simp [isLiteral, NodeKind.isInput] at isInput
    | literal other isOther body =>
        cases isLiteral.symm.trans isOther
        exact body
    | rule isRule => simp [rule?, isLiteral] at isRule
  have undriven : ∀ signal, ¬design.InputSignal constant signal := by
    rintro signal ⟨-, other, own, otherInRange, isInput⟩
    have isOther : constant ∈ (design.node other).kind.entities := by
      simp [isInput, NodeKind.entities]
    rw [compiled.coherent.grounded.apart otherInRange
      (compiled.coherent.formed.registered found) isOther isConstant, isLiteral] at isInput
    cases isInput
  have single : design.heads .red id = {constant} := by simp [heads, isLiteral]
  rw [shown, single, Finset.sum_singleton, Circuit.output_run_succ simulated.reached.sound _ _
    (simulated.members found _ isConstant)]
  exact (simulated.run count).reached.count_nextOutput_of_undriven body undriven

/-- Once a value has passed all cells on its way, a producer shows the value of its formula. -/
theorem Compiled.shown_eq_value
    (compiled : design.Compiled)
    {netlist : Netlist}
    (faithful : Faithful netlist design)
    (acyclic : design.Acyclic)
    (simulated : design.Simulated circuit)
    {inputs : Nat → Int32}
    (holds :
      ∀ {bits id own constant}, design.table.find? bits = some (some id) →
        (design.node id).kind = .input own constant → circuit.Holds constant (inputs id))
    {bits : List Bit}
    {formula : Formula}
    (denotes : netlist.Denotes bits formula)
    {id : Nat}
    (found : design.table.find? bits = some (some id))
    (done : (design.node id).wiring = .done none)
    {steps : Nat}
    (enough : 1 + 2 * formula.depth ≤ steps) :
    design.shown (circuit.run design.board steps) id .value = formula.value inputs := by
  have grounded := compiled.coherent.grounded
  have formed := compiled.coherent.formed
  have only {bits : List Bit} {one other : Nat}
      (found : design.table.find? bits = some (some one))
      (isProducer : netlist.producer? bits = some other) : one = other :=
    Option.some.inj (Option.some.inj (found.symm.trans (faithful.registered isProducer)))
  -- The induction is on the formula, and the number of steps goes down with it.
  induction denotes generalizing id steps with
  | @input bits own other isProducer given =>
      obtain rfl := only found isProducer
      obtain ⟨count, rfl⟩ : ∃ count, steps = count + 1 := ⟨steps - 1, by omega⟩
      obtain ⟨constant, isKind⟩ := (faithful.fits given).2
      exact compiled.shown_input_run simulated found isKind (holds found isKind) count
  | @literal bits free digits short =>
      obtain ⟨count, rfl⟩ : ∃ count, steps = count + 1 := ⟨steps - 1, by omega⟩
      rcases faithful.produced found with ⟨isProducer, -⟩ | ⟨-, ⟨constant, isLiteral⟩, -⟩
      · rw [free] at isProducer
        cases isProducer
      · exact compiled.shown_literal_run simulated found isLiteral count
  | @comparison bits a b other comparator left right isProducer given _ _ leftValue rightValue =>
      obtain rfl := only found isProducer
      simp only [Formula.depth] at enough
      obtain ⟨count, rfl⟩ : ∃ count, steps = count + 2 := ⟨steps - 2, by omega⟩
      obtain ⟨-, fits⟩ := faithful.fits given
      obtain ⟨label, first, isGate, body⟩ := grounded.kind_of_rule (formed.registered found) fits
      obtain ⟨leftId, leftFound, -, leftDone⟩ :=
        compiled.exists_operand acyclic done fits rfl (List.mem_cons_self : a ∈ [a, b])
      obtain ⟨rightId, rightFound, -, rightDone⟩ := compiled.exists_operand acyclic done fits rfl
        (List.mem_cons_of_mem _ List.mem_cons_self : b ∈ [a, b])
      obtain ⟨shows, value, control⟩ := compiled.levels_gate_run simulated found done isGate
        leftFound rightFound count
      rw [shows, Circuit.count_comparison (simulated.run _).reached.sound body, value, control,
        leftValue leftFound leftDone (by omega), rightValue rightFound rightDone (by omega),
        Formula.value]
  | @operation bits a b other operator left right isProducer given _ _ leftValue rightValue =>
      obtain rfl := only found isProducer
      simp only [Formula.depth] at enough
      obtain ⟨count, rfl⟩ : ∃ count, steps = count + 2 := ⟨steps - 2, by omega⟩
      obtain ⟨-, fits⟩ := faithful.fits given
      obtain ⟨label, first, isGate, body⟩ := grounded.kind_of_rule (formed.registered found) fits
      obtain ⟨leftId, leftFound, -, leftDone⟩ :=
        compiled.exists_operand acyclic done fits rfl (List.mem_cons_self : a ∈ [a, b])
      obtain ⟨rightId, rightFound, -, rightDone⟩ := compiled.exists_operand acyclic done fits rfl
        (List.mem_cons_of_mem _ List.mem_cons_self : b ∈ [a, b])
      obtain ⟨shows, value, control⟩ := compiled.levels_gate_run simulated found done isGate
        leftFound rightFound count
      rw [shows, Circuit.count_operation (simulated.run _).reached.sound body, value, control,
        leftValue leftFound leftDone (by omega), rightValue rightFound rightDone (by omega),
        Formula.value]
  | @mux bits a b select other left right choice isProducer given _ _ _ leftValue rightValue
      choiceValue =>
      obtain rfl := only found isProducer
      simp only [Formula.depth] at enough
      obtain ⟨count, rfl⟩ : ∃ count, steps = count + 2 := ⟨steps - 2, by omega⟩
      obtain ⟨-, fits⟩ := faithful.fits given
      obtain ⟨first, isMux⟩ := grounded.kind_of_rule (formed.registered found) fits
      obtain ⟨leftId, leftFound, -, leftDone⟩ :=
        compiled.exists_operand acyclic done fits rfl (List.mem_cons_self : a ∈ [a, b, select])
      obtain ⟨rightId, rightFound, -, rightDone⟩ := compiled.exists_operand acyclic done fits rfl
        (List.mem_cons_of_mem _ List.mem_cons_self : b ∈ [a, b, select])
      obtain ⟨choiceId, choiceFound, -, choiceDone⟩ := compiled.exists_operand acyclic done fits rfl
        (by simp : select ∈ [a, b, select])
      rw [compiled.shown_mux_run simulated found done isMux leftFound rightFound choiceFound,
        leftValue leftFound leftDone (by omega), rightValue rightFound rightDone (by omega),
        choiceValue choiceFound choiceDone (by omega), Formula.value]

end CircuitNetwork.Design
