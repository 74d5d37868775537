import CircuitNetwork.Proofs.Circuit.Start
import CircuitNetwork.Proofs.Circuit.Value
import CircuitNetwork.Synthesis.Gate

namespace CircuitNetwork

/-!
# What gates put out

The next output of the combinators that memories and cells are made of, by the
values on the networks of their inputs.
-/

theorem Signal.value_ne_control : Signal.value ≠ Signal.control := by
  decide

namespace Circuit

variable {circuit : Circuit} {board : Board} {id : Nat}

/-- The count of a signal on the input of an entity: the sum over both colors. -/
def level (circuit : Circuit) (board : Board) (id : Nat) (signal : Signal) : Int32 :=
  circuit.value board ⟨id, .one⟩ .red signal + circuit.value board ⟨id, .one⟩ .green signal

/-- An entity reads the sum of the counts on its two networks. -/
theorem count_input_eq_level
    (sound : circuit.Sound)
    (signal : Signal) :
    Frame.count (circuit.input board (board.input id)) signal = circuit.level board id signal :=
  count_input sound board _ signal

/-- A selector puts out one signal while the condition on another one holds. -/
theorem count_selector
    (sound : circuit.Sound)
    {comparator : Comparator}
    {first output : Signal}
    {constant : Int32}
    {copyCount : Bool}
    (body : (board.entity id).body = selector comparator first constant copyCount output)
    (signal : Signal) :
    Frame.count (circuit.nextOutput board id) signal =
      if signal = output ∧ comparator.holds (circuit.level board id first) constant then
        (if copyCount then circuit.level board id output else 1)
      else 0 := by
  simp only [nextOutput, body, selector, deciderOutput, operandValue, count_input_eq_level sound]
  by_cases passes : comparator.holds (circuit.level board id first) constant = true
  · simp [passes]
  · simp [passes]

/-- A transformer moves the value on its input to the control signal. -/
theorem count_transformer
    (sound : circuit.Sound)
    (body : (board.entity id).body = transformer)
    (signal : Signal) :
    Frame.count (circuit.nextOutput board id) signal =
      if signal = .control then circuit.level board id .value else 0 := by
  simp only [nextOutput, body, transformer, arithmeticOutput, operandValue,
    count_input_eq_level sound, Operator.apply, Frame.count_single]
  simp

/-- A comparison puts out one while it holds between the value and the control signal. -/
theorem count_comparison
    (sound : circuit.Sound)
    {comparator : Comparator}
    (body : (board.entity id).body = comparison comparator) :
    Frame.count (circuit.nextOutput board id) .value =
      if comparator.holds (circuit.level board id .value) (circuit.level board id .control) then 1
      else 0 := by
  simp only [nextOutput, body, comparison, deciderOutput, operandValue, count_input_eq_level sound]
  split
  · simp
  · simp

/-- An operation puts out its result on the value and the control signal. -/
theorem count_operation
    (sound : circuit.Sound)
    {operator : Operator}
    (body : (board.entity id).body = operation operator) :
    Frame.count (circuit.nextOutput board id) .value =
      operator.apply (circuit.level board id .value) (circuit.level board id .control) := by
  simp only [nextOutput, body, operation, arithmeticOutput, operandValue,
    count_input_eq_level sound, Frame.count_single, if_true]

end Circuit

end CircuitNetwork
