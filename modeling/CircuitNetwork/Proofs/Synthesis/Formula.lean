import CircuitNetwork.Proofs.Synthesis.History

namespace CircuitNetwork

/-!
# Formulas of bit vectors

A netlist keeps what nodes were asked for, by the identities that were returned for
them, and the producers that were registered. A bit vector of a netlist denotes a
formula over the primary inputs: each cell is unfolded into the formulas of its
operands. Formulas have a value, and a depth, which is the number of cells that a
value passes on its way.
-/

/-- The 32 bit two's complement value of a vector of zeros and ones, least significant bit first. -/
def Bit.word : List Bit → Int32
  | [] => 0
  | bit :: rest => 2 * word rest + if bit = one then 1 else 0

theorem Bit.word_eq_of_value?
    {bits : List Bit}
    {number : Nat}
    (written : value? bits = some number) :
    word bits = Int32.ofNat number := by
  induction bits generalizing number with
  | nil =>
      cases written
      rfl
  | cons bit rest inductionHypothesis =>
      unfold value? at written
      split at written
      · cases written
      · rename_i high found
        have different : zero ≠ one := by decide
        rw [word, inductionHypothesis found]
        split at written
        · rename_i isZero
          cases written
          simp [isZero, different, Int32.ofNat_mul]
        · split at written
          · rename_i isOne
            cases written
            simp [isOne, Int32.ofNat_mul, Int32.ofNat_add]
          · cases written

/-- A vector that writes a number consists of zeros and ones. -/
theorem Bit.digits_of_value?
    {bits : List Bit}
    {number : Nat}
    (written : value? bits = some number) :
    ∀ bit ∈ bits, bit = zero ∨ bit = one := by
  induction bits generalizing number with
  | nil =>
      simp
  | cons bit rest inductionHypothesis =>
      unfold value? at written
      split at written
      · cases written
      · rename_i high found
        refine List.forall_mem_cons.mpr ⟨?_, inductionHypothesis found⟩
        by_contra other
        rw [not_or] at other
        simp [other] at written

theorem Bit.literalValue_eq_ok_iff
    {bits : List Bit}
    {number : Nat} :
    literalValue bits = .ok number ↔ bits.length ≤ 63 ∧ value? bits = some number := by
  rw [literalValue]
  split
  · simp only [reduceCtorEq, false_iff]
    omega
  · rename_i short
    cases value? bits <;> simp [Nat.le_of_not_lt short]

theorem Design.literalCount_eq_ok_iff
    {bits : List Bit}
    {count : Int32} :
    literalCount bits = .ok count ↔
      bits.length ≤ 32 ∧ ∃ number, Bit.value? bits = some number ∧ Int32.ofNat number = count := by
  rw [literalCount]
  split
  · simp only [reduceCtorEq, false_iff]
    omega
  · rename_i narrow
    have short : bits.length ≤ 63 := by omega
    cases valued : Bit.literalValue bits with
    | ok number =>
        have written := (Bit.literalValue_eq_ok_iff.mp valued).2
        simp [written, Nat.le_of_not_lt narrow]
    | error reason =>
        simp only [reduceCtorEq, false_iff]
        rintro ⟨-, number, written, -⟩
        rw [Bit.literalValue_eq_ok_iff.mpr ⟨short, written⟩] at valued
        cases valued

/-- A literal has the value that its bits write. -/
theorem Design.word_eq_of_literalCount
    {bits : List Bit}
    {count : Int32}
    (counted : literalCount bits = .ok count) :
    Bit.word bits = count := by
  obtain ⟨-, number, written, rfl⟩ := literalCount_eq_ok_iff.mp counted
  exact Bit.word_eq_of_value? written

/-- What comparisons, operations and multiplexers compute from primary inputs and literals. -/
inductive Formula where
  | input (id : Nat)
  | literal (bits : List Bit)
  | comparison (comparator : Comparator) (a b : Formula)
  | operation (operator : Operator) (a b : Formula)
  | mux (a b select : Formula)
  deriving Repr, DecidableEq

namespace Formula

/-- The value of a formula, given those of the inputs. -/
def value (inputs : Nat → Int32) : Formula → Int32
  | input id => inputs id
  | literal bits => Bit.word bits
  | comparison comparator a b =>
      if comparator.holds (a.value inputs) (b.value inputs) then 1 else 0
  | operation operator a b => operator.apply (a.value inputs) (b.value inputs)
  | mux a b select => if select.value inputs = 0 then a.value inputs else b.value inputs

/-- The number of cells on the longest way down to an input or a literal. -/
def depth : Formula → Nat
  | input _ | literal _ => 0
  | comparison _ a b | operation _ a b => max a.depth b.depth + 1
  | mux a b select => max (max a.depth b.depth) select.depth + 1

end Formula

namespace Design

open Relation

variable {design later : Design}

/-- What a node computes, if it stands for a cell without state. -/
def rule? (design : Design) (id : Nat) : Option Rule :=
  match (design.node id).kind with
  | .gate _ a b first =>
      match (design.board.entity (first + 1)).body with
      | .decider condition => some (.comparison condition.comparator a b)
      | .arithmetic condition => some (.operation condition.operator a b)
      | _ => none
  | .mux a b select _ => some (.mux a b select)
  | _ => none

/-- A node that computes is a gate with a decider or an arithmetic combinator, or a multiplexer. -/
theorem rule_cases
    {id : Nat}
    {rule : Rule}
    (isRule : design.rule? id = some rule) :
    (∃ label a b first condition, (design.node id).kind = .gate label a b first ∧
      (design.board.entity (first + 1)).body = .decider condition ∧
        rule = .comparison condition.comparator a b) ∨
    (∃ label a b first condition, (design.node id).kind = .gate label a b first ∧
      (design.board.entity (first + 1)).body = .arithmetic condition ∧
        rule = .operation condition.operator a b) ∨
    ∃ a b select first, (design.node id).kind = .mux a b select first ∧
      rule = .mux a b select := by
  unfold rule? at isRule
  split at isRule
  · rename_i label a b first isGate
    split at isRule
    · rename_i condition body
      exact .inl ⟨label, a, b, first, condition, isGate, body, (Option.some.inj isRule).symm⟩
    · rename_i condition body
      exact .inr (.inl ⟨label, a, b, first, condition, isGate, body, (Option.some.inj isRule).symm⟩)
    · cases isRule
  · rename_i a b select first isMux
    exact .inr (.inr ⟨a, b, select, first, isMux, (Option.some.inj isRule).symm⟩)
  · cases isRule

/-- A node is what was asked for, as far as inputs, outputs and cells without state go. -/
def Fits (design : Design) (id : Nat) : Addition → Prop
  | .input bits => ∃ constant, (design.node id).kind = .input bits constant
  | .output bits => ∃ terminal, (design.node id).kind = .output bits terminal
  | .comparison comparator a b => design.rule? id = some (.comparison comparator a b)
  | .operation operator a b => design.rule? id = some (.operation operator a b)
  | .mux a b select => design.rule? id = some (.mux a b select)
  | .literal _ | .tap _ | .memory _ => True

/-- A new gate computes what its combinator does. -/
theorem rule?_push_gate
    (design : Design)
    (combinator : Body)
    (label : String)
    (a b : List Bit) :
    (design.push (gatePart combinator) (.gate label a b design.board.size)).rule?
        design.nodes.size =
      match combinator with
      | .decider condition => some (.comparison condition.comparator a b)
      | .arithmetic condition => some (.operation condition.operator a b)
      | _ => none := by
  simp only [rule?, node_push, if_pos]
  rw [push, design.board.body_install (gatePart combinator) 1 rfl]

/-- What is added is what was asked for, under a new identity that is returned. -/
theorem fits_of_make
    {addition : Addition}
    {id : Nat}
    (made : addition.make design = .ok id later) :
    id = design.nodes.size ∧ id < later.nodes.size ∧ later.Fits id addition := by
  have installed {part : Part} {kind : Nat → NodeKind}
      (run : installNode part kind design = .ok id later) :
      id = design.nodes.size ∧ later = design.push part (kind design.board.size) := by
    rw [installNode_run] at run
    cases run
    exact ⟨rfl, rfl⟩
  cases addition with
  | input bits =>
      obtain ⟨rfl, rfl⟩ := installed made
      exact ⟨rfl, by simp, _, by rw [node_push, if_pos rfl]⟩
  | output bits =>
      obtain ⟨rfl, rfl⟩ := installed made
      exact ⟨rfl, by simp, _, by rw [node_push, if_pos rfl]⟩
  | comparison comparator a b =>
      obtain ⟨rfl, rfl⟩ := installed made
      exact ⟨rfl, by simp, design.rule?_push_gate (CircuitNetwork.comparison comparator) _ a b⟩
  | operation operator a b =>
      obtain ⟨rfl, rfl⟩ := installed made
      exact ⟨rfl, by simp, design.rule?_push_gate (CircuitNetwork.operation operator) _ a b⟩
  | mux a b select =>
      obtain ⟨rfl, rfl⟩ := installed made
      exact ⟨rfl, by simp, by simp only [Fits, rule?, node_push, if_pos]⟩
  | tap point =>
      rw [Addition.make, addNode_run] at made
      cases made
      exact ⟨rfl, by simp, trivial⟩
  | literal bits =>
      rw [Addition.make, addLiteral] at made
      cases counted : literalCount bits with
      | error failure =>
          rw [counted] at made
          cases made
      | ok count =>
          rw [counted] at made
          obtain ⟨rfl, rfl⟩ := installed made
          exact ⟨rfl, by simp, trivial⟩
  | memory cell =>
      rw [Addition.make] at made
      cases accepted : Bank.ofCell cell design.board.size with
      | error failure =>
          simp only [Functor.map, EStateM.map, addMemory_run_of_error accepted] at made
          cases made
      | ok bank =>
          simp only [Functor.map, EStateM.map, addMemory_run accepted] at made
          cases made
          rw [size_withMemory]
          exact ⟨rfl, by omega, trivial⟩

/-- Only the kind of a node and the bodies of its entities matter for what it computes. -/
theorem rule?_eq_of_kind_eq
    {id : Nat}
    (kind_eq : (later.node id).kind = (design.node id).kind)
    (body_eq :
      ∀ entity ∈ (design.node id).kind.entities,
        (later.board.entity entity).body = (design.board.entity entity).body) :
    later.rule? id = design.rule? id := by
  unfold rule?
  rw [kind_eq]
  cases isKind : (design.node id).kind with
  | gate label a b first =>
      rw [isKind] at body_eq
      have second := body_eq (first + 1) (by simp [NodeKind.entities])
      simp only [second]
  | _ => rfl

/-- A node stays what was asked for. -/
theorem Fits.of_kind_eq
    {id : Nat}
    {addition : Addition}
    (fits : design.Fits id addition)
    (kind_eq : (later.node id).kind = (design.node id).kind)
    (body_eq :
      ∀ entity ∈ (design.node id).kind.entities,
        (later.board.entity entity).body = (design.board.entity entity).body) :
    later.Fits id addition := by
  have rule_eq := rule?_eq_of_kind_eq kind_eq body_eq
  cases addition with
  | input bits => exact fits.imp fun _ => kind_eq.trans
  | output bits => exact fits.imp fun _ => kind_eq.trans
  | comparison comparator a b => exact rule_eq.trans fits
  | operation operator a b => exact rule_eq.trans fits
  | mux a b select => exact rule_eq.trans fits
  | literal | tap | memory => trivial

/-! ## Netlists -/

/-- What nodes were asked for, by the identities that were returned, and registered producers. -/
structure Netlist where
  nodes : List (Nat × Addition) := []
  producers : List (List Bit × Nat) := []

/-- The inputs and the cells without state. -/
def Addition.computes : Addition → Bool
  | input _ | comparison .. | operation .. | mux .. => true
  | literal _ | tap _ | output _ | memory _ => false

/-- The vectors that a cell without state reads. -/
def Addition.operands : Addition → List (List Bit)
  | comparison _ a b | operation _ a b => [a, b]
  | mux a b select => [a, b, select]
  | input _ | literal _ | tap _ | output _ | memory _ => []

/-- A cell asks for the producers of its operands and for nothing else. -/
theorem Fits.mem_operands_iff
    {id : Nat}
    {addition : Addition}
    (fits : design.Fits id addition)
    (computes : addition.computes)
    {bits : List Bit} :
    bits ∈ addition.operands ↔ ∃ request, design.Requests id request ∧ request.bits = bits := by
  have gate {label : String} {a b : List Bit} {first : Nat}
      (isGate : (design.node id).kind = .gate label a b first) :
      bits ∈ [a, b] ↔ ∃ request, design.Requests id request ∧ request.bits = bits := by
    simp [Requests, isGate, NodeKind.stages, eq_comm]
  cases addition with
  | input own =>
      obtain ⟨constant, isInput⟩ := fits
      simp [Requests, isInput, NodeKind.stages, Addition.operands]
  | comparison comparator a b =>
      rcases rule_cases fits with ⟨_, _, _, _, _, isGate, -, same⟩ | ⟨_, _, _, _, _, -, -, same⟩ |
        ⟨_, _, _, _, -, same⟩ <;> cases same
      exact gate isGate
  | operation operator a b =>
      rcases rule_cases fits with ⟨_, _, _, _, _, -, -, same⟩ | ⟨_, _, _, _, _, isGate, -, same⟩ |
        ⟨_, _, _, _, -, same⟩ <;> cases same
      exact gate isGate
  | mux a b select =>
      rcases rule_cases fits with ⟨_, _, _, _, _, -, -, same⟩ | ⟨_, _, _, _, _, -, -, same⟩ |
        ⟨_, _, _, _, isMux, same⟩ <;> cases same
      simp only [Requests, isMux, NodeKind.stages, Addition.operands]
      simp [eq_comm, or_comm, or_assoc]
  | literal | tap | output | memory => cases computes

namespace Netlist

/-- What a node was asked for. -/
def node? (netlist : Netlist) (id : Nat) : Option Addition :=
  netlist.nodes.lookup id

/-- The producer that was registered for a bit vector last. -/
def producer? (netlist : Netlist) (bits : List Bit) : Option Nat :=
  netlist.producers.lookup bits

/-- Note what was asked for under the identity that was returned. -/
def note (netlist : Netlist) (id : Nat) (addition : Addition) : Netlist :=
  { netlist with nodes := (id, addition) :: netlist.nodes }

/-- Register a producer. -/
def enter (netlist : Netlist) (bits : List Bit) (id : Nat) : Netlist :=
  { netlist with producers := (bits, id) :: netlist.producers }

/-- A node is an input or a cell without state. -/
def Computes (netlist : Netlist) (id : Nat) : Prop :=
  ∃ addition, netlist.node? id = some addition ∧ addition.computes

/-- A cell reads a bit vector that another node produces. -/
def Needs (netlist : Netlist) (id target : Nat) : Prop :=
  ∃ addition bits,
    netlist.node? id = some addition ∧ bits ∈ addition.operands ∧
      netlist.producer? bits = some target

/-- No cell depends on itself. -/
def Acyclic (netlist : Netlist) : Prop :=
  ∀ id, ¬TransGen netlist.Needs id id

/-- The formula that a bit vector stands for. -/
inductive Denotes (netlist : Netlist) : List Bit → Formula → Prop where
  | input
      {bits own : List Bit}
      {id : Nat}
      (found : netlist.producer? bits = some id)
      (given : netlist.node? id = some (.input own)) :
      Denotes netlist bits (.input id)
  | literal
      {bits : List Bit}
      (free : netlist.producer? bits = none)
      (digits : ∀ bit ∈ bits, bit = .zero ∨ bit = .one)
      (short : bits.length ≤ 32) :
      Denotes netlist bits (.literal bits)
  | comparison
      {bits a b : List Bit}
      {id : Nat}
      {comparator : Comparator}
      {left right : Formula}
      (found : netlist.producer? bits = some id)
      (given : netlist.node? id = some (.comparison comparator a b))
      (denotesLeft : Denotes netlist a left)
      (denotesRight : Denotes netlist b right) :
      Denotes netlist bits (.comparison comparator left right)
  | operation
      {bits a b : List Bit}
      {id : Nat}
      {operator : Operator}
      {left right : Formula}
      (found : netlist.producer? bits = some id)
      (given : netlist.node? id = some (.operation operator a b))
      (denotesLeft : Denotes netlist a left)
      (denotesRight : Denotes netlist b right) :
      Denotes netlist bits (.operation operator left right)
  | mux
      {bits a b select : List Bit}
      {id : Nat}
      {left right choice : Formula}
      (found : netlist.producer? bits = some id)
      (given : netlist.node? id = some (.mux a b select))
      (denotesLeft : Denotes netlist a left)
      (denotesRight : Denotes netlist b right)
      (denotesChoice : Denotes netlist select choice) :
      Denotes netlist bits (.mux left right choice)

/-- A vector denotes one formula at most. -/
theorem Denotes.unique
    {netlist : Netlist}
    {bits : List Bit}
    {formula other : Formula}
    (denotes : netlist.Denotes bits formula)
    (denotesOther : netlist.Denotes bits other) :
    other = formula := by
  -- Both derivations have one producer or none, and what it was asked for admits one constructor.
  induction denotes generalizing other <;> cases denotesOther <;> grind

/-- The note made last is found. -/
theorem node?_note
    (netlist : Netlist)
    (id : Nat)
    (addition : Addition)
    (asked : Nat) :
    (netlist.note id addition).node? asked =
      if asked = id then some addition else netlist.node? asked := by
  by_cases same : asked = id
  · simp [node?, note, same]
  · simp [node?, note, List.lookup_cons, beq_eq_false_iff_ne.mpr same, same]

theorem producer?_enter
    (netlist : Netlist)
    (bits : List Bit)
    (id : Nat)
    (asked : List Bit) :
    (netlist.enter bits id).producer? asked =
      if asked = bits then some id else netlist.producer? asked := by
  by_cases same : asked = bits
  · simp [producer?, enter, same]
  · simp [producer?, enter, List.lookup_cons, beq_eq_false_iff_ne.mpr same, same]

end Netlist

end Design

end CircuitNetwork
