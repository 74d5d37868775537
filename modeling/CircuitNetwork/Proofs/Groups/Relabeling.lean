import CircuitNetwork.Entity
import CircuitNetwork.Proofs.Wire.Networks

namespace CircuitNetwork

/-!
# Another signal in the place of one

A combinator can get another signal in the place of one that it reads or puts
out, and nothing else about it changes. On a relabeled board this was done at some
endpoints, and the networks kept their endpoints.
-/

/-- Put one signal in the place of another. -/
def Signal.rename (old new signal : Signal) : Signal :=
  if signal = old then new else signal

/-- Renaming a second time changes nothing. -/
theorem Signal.rename_rename
    (old new signal : Signal) :
    rename old new (rename old new signal) = rename old new signal := by
  unfold rename
  grind

/-! ## Bodies -/

namespace Body

/-- Put one signal in the place of another where it is read, put out, or both. -/
def relabel (old new : Signal) (reads puts : Bool) (body : Body) : Body :=
  let body := if reads then body.renameOperands old new else body
  if puts then body.renameOutputs old new else body

/-- Operands are renamed where the signal is read. -/
theorem operands_relabel
    (old new : Signal)
    (reads puts : Bool)
    (body : Body) :
    (body.relabel old new reads puts).operands =
      if reads then body.operands.map (Signal.rename old new) else body.operands := by
  cases body with
  | constant => cases reads <;> cases puts <;> rfl
  | decider condition =>
      obtain ⟨first, second, comparator, output, copyCount⟩ := condition
      cases second <;> cases reads <;> cases puts <;> rfl
  | arithmetic condition =>
      obtain ⟨first, second, operator, output⟩ := condition
      cases second <;> cases reads <;> cases puts <;> rfl
  | fixture => cases reads <;> cases puts <;> rfl

/-- Outputs are renamed where the signal is put out. -/
theorem outputs_relabel
    (old new : Signal)
    (reads puts : Bool)
    (body : Body) :
    (body.relabel old new reads puts).outputs =
      if puts then body.outputs.map (Signal.rename old new) else body.outputs := by
  cases body with
  | constant isOn filters =>
      have renamed : (filters.map fun filter =>
          if filter.signal = old then { filter with signal := new } else filter).map (·.signal) =
            (filters.map (·.signal)).map (Signal.rename old new) := by
        simp only [List.map_map]
        apply List.map_congr_left
        intro filter _
        simp only [Function.comp_apply, Signal.rename]
        split <;> rfl
      cases reads <;> cases puts
      · rfl
      · exact renamed
      · rfl
      · exact renamed
  | decider => cases reads <;> cases puts <;> rfl
  | arithmetic => cases reads <;> cases puts <;> rfl
  | fixture => cases reads <;> cases puts <;> rfl

/-- A relabeled combinator keeps its ports. -/
@[simp] theorem outputPort_relabel
    (old new : Signal)
    (reads puts : Bool)
    (body : Body) :
    (body.relabel old new reads puts).outputPort = body.outputPort := by
  cases body <;> cases reads <;> cases puts <;> rfl

@[simp] theorem passThrough_relabel
    (old new : Signal)
    (reads puts : Bool)
    (body : Body) :
    (body.relabel old new reads puts).passThrough = body.passThrough := by
  cases body <;> cases reads <;> cases puts <;> rfl

/-- Only a constant becomes a constant. -/
theorem relabel_isConstant_iff
    (old new : Signal)
    (reads puts : Bool)
    (body : Body) :
    (∃ isOn filters, body.relabel old new reads puts = constant isOn filters) ↔
      ∃ isOn filters, body = constant isOn filters := by
  cases body <;> cases reads <;> cases puts <;> simp [relabel, renameOperands, renameOutputs]

/-- Relabeling twice is relabeling once, in all places of both times. -/
theorem relabel_relabel
    (old new : Signal)
    (reads puts readsToo putsToo : Bool)
    (body : Body) :
    (body.relabel old new reads puts).relabel old new readsToo putsToo =
      body.relabel old new (reads || readsToo) (puts || putsToo) := by
  have operandTwice (operand : Operand) :
      (operand.rename old new).rename old new = operand.rename old new := by
    cases operand with
    | signal read => exact congrArg Operand.signal (Signal.rename_rename old new read)
    | constant => rfl
  have filterTwice (filter : Filter) :
      (fun filter : Filter =>
        if filter.signal = old then { filter with signal := new } else filter)
          (if filter.signal = old then { filter with signal := new } else filter) =
        if filter.signal = old then { filter with signal := new } else filter := by
    grind
  have signalTwice := Signal.rename_rename old new
  unfold Signal.rename at signalTwice
  cases body with
  | constant isOn filters =>
      cases reads <;> cases puts <;> cases readsToo <;> cases putsToo <;>
        simp [relabel, renameOperands, renameOutputs, Function.comp_def, filterTwice]
  | decider condition =>
      cases reads <;> cases puts <;> cases readsToo <;> cases putsToo <;>
        simp [relabel, renameOperands, renameOutputs, operandTwice, signalTwice]
  | arithmetic condition =>
      cases reads <;> cases puts <;> cases readsToo <;> cases putsToo <;>
        simp [relabel, renameOperands, renameOutputs, operandTwice, signalTwice]
  | fixture =>
      cases reads <;> cases puts <;> cases readsToo <;> cases putsToo <;> rfl

end Body

/-! ## Boards -/

namespace Board

/-- A board on which a signal was renamed at some endpoints. -/
structure Relabeled
    (board other : Board)
    (old new : Signal)
    (points : List (Option Endpoint)) :
    Prop where
  roster_eq : ∀ network, other.roster network = board.roster network
  pointers_eq : other.pointers = board.pointers
  body_eq : ∀ id, (other.entity id).body =
    (board.entity id).body.relabel old new (some (board.input id) ∈ points)
      (some (board.output id) ∈ points)

namespace Relabeled

variable {board other : Board} {old new : Signal} {points : List (Option Endpoint)}

theorem output_eq
    (relabeled : board.Relabeled other old new points)
    (id : Nat) :
    other.output id = board.output id := by
  rw [Board.output, relabeled.body_eq, Body.outputPort_relabel, Board.output]

/-- The operands of an entity are renamed if its input is one of the endpoints. -/
theorem operands_eq
    (relabeled : board.Relabeled other old new points)
    (id : Nat) :
    (other.entity id).body.operands =
      if some (board.input id) ∈ points then
        (board.entity id).body.operands.map (Signal.rename old new)
      else
        (board.entity id).body.operands := by
  rw [relabeled.body_eq, Body.operands_relabel]
  simp only [decide_eq_true_eq]

/-- The outputs of an entity are renamed if its output is one of the endpoints. -/
theorem outputs_eq
    (relabeled : board.Relabeled other old new points)
    (id : Nat) :
    (other.entity id).body.outputs =
      if some (board.output id) ∈ points then
        (board.entity id).body.outputs.map (Signal.rename old new)
      else
        (board.entity id).body.outputs := by
  rw [relabeled.body_eq, Body.outputs_relabel]
  simp only [decide_eq_true_eq]

/-- Relabeling at some endpoints and then at others is relabeling at all of them. -/
theorem trans
    {last : Board}
    {more : List (Option Endpoint)}
    (first : board.Relabeled other old new points)
    (second : other.Relabeled last old new more) :
    board.Relabeled last old new (points ++ more) where
  roster_eq := fun network => (second.roster_eq network).trans (first.roster_eq network)
  pointers_eq := second.pointers_eq.trans first.pointers_eq
  body_eq := by
    intro id
    rw [second.body_eq, first.body_eq, Body.relabel_relabel, first.output_eq, Board.input,
      Board.input]
    simp only [List.mem_append, Bool.decide_or]

theorem lists_iff
    (relabeled : board.Relabeled other old new points)
    {color : Color}
    {network : Nat}
    {point : Endpoint} :
    other.Lists color network point ↔ board.Lists color network point := by
  unfold Lists
  rw [relabeled.roster_eq]

/-- Networks and pointers still agree. -/
theorem tidy
    (relabeled : board.Relabeled other old new points)
    (tidy : board.Tidy) :
    other.Tidy where
  nodup := by
    intro network color listed isRoster
    rw [relabeled.roster_eq] at isRoster
    exact tidy.nodup isRoster
  network?_eq_some_iff := by
    intro color point network
    rw [network?, relabeled.pointers_eq, relabeled.lists_iff]
    exact tidy.network?_eq_some_iff

/-- Relabeling joins no endpoints and parts none. -/
theorem joined_iff
    (relabeled : board.Relabeled other old new points)
    (color : Color)
    (first second : Endpoint) :
    other.Joined color first second ↔ board.Joined color first second := by
  simp only [Joined, network?, relabeled.pointers_eq]

end Relabeled

end Board

end CircuitNetwork
