import CircuitNetwork.Proofs.Synthesis.Formula

namespace CircuitNetwork

/-!
# Histories of a table

Producers are registered in a table one after the other, by hand, with a primary
input or with a literal that is made when it is first asked for. Whatever else
happens to the design in between, the table is the map that the registrations
describe: the last producer of a vector is the one that is found, and vectors keep
the order in which they were first registered.
-/

namespace Bit

/-- The vectors that a literal can be made for. -/
def IsLiteral (bits : List Bit) : Prop :=
  bits.length ≤ 32 ∧ ∀ bit ∈ bits, bit = zero ∨ bit = one

instance (bits : List Bit) : Decidable (IsLiteral bits) :=
  inferInstanceAs (Decidable (_ ∧ _))

theorem value?_ne_none_iff
    {bits : List Bit} :
    value? bits ≠ none ↔ ∀ bit ∈ bits, bit = zero ∨ bit = one := by
  induction bits with
  | nil =>
      simp [value?]
  | cons bit rest inductionHypothesis =>
      rw [List.forall_mem_cons, ← inductionHypothesis, value?]
      cases value? rest with
      | none =>
          simp
      | some high =>
          have different : one ≠ zero := by decide
          by_cases isZero : bit = zero
          · simp [isZero]
          · by_cases isOne : bit = one <;> simp [isZero, isOne, different]

theorem toBitVec_word_cons
    (bit : Bit)
    (rest : List Bit) :
    (word (bit :: rest)).toBitVec = (word rest).toBitVec.shiftConcat (decide (bit = one)) := by
  apply BitVec.eq_of_toNat_eq
  rw [word, BitVec.toNat_shiftConcat, Int32.toBitVec_add, Int32.toBitVec_mul, BitVec.toNat_add,
    BitVec.toNat_mul, Nat.shiftLeft_eq]
  by_cases isOne : bit = one <;> simp [isOne, Nat.mul_comm]

/-- The places of a word are those of the vector. -/
theorem getLsbD_word
    (bits : List Bit)
    {place : Nat}
    (inRange : place < 32) :
    (word bits).toBitVec.getLsbD place = decide (bits[place]? = some one) := by
  induction bits generalizing place with
  | nil =>
      simp [word]
  | cons bit rest inductionHypothesis =>
      rw [toBitVec_word_cons, BitVec.getLsbD_shiftConcat]
      cases place with
      | zero => simp
      | succ place => simp [inRange, inductionHypothesis (Nat.lt_of_succ_lt inRange)]

theorem IsLiteral.getLsbD_word
    {bits : List Bit}
    (literal : IsLiteral bits)
    (place : Nat) :
    (word bits).toBitVec.getLsbD place = decide (bits[place]? = some one) := by
  by_cases inRange : place < 32
  · exact Bit.getLsbD_word bits inRange
  · have missing : bits[place]? = none := List.getElem?_eq_none (by have := literal.1; omega)
    rw [BitVec.getLsbD_of_ge _ _ (Nat.le_of_not_lt inRange), missing]
    simp

theorem IsLiteral.all_isConst
    {bits : List Bit}
    (literal : IsLiteral bits) :
    bits.all (·.isConst) := by
  rw [List.all_eq_true]
  intro bit member
  rcases literal.2 bit member with rfl | rfl <;> decide

end Bit

namespace Design

theorem literalCount_of_isLiteral
    {bits : List Bit}
    (literal : Bit.IsLiteral bits) :
    literalCount bits = .ok (Bit.word bits) := by
  obtain ⟨number, written⟩ := Option.ne_none_iff_exists'.mp (Bit.value?_ne_none_iff.mpr literal.2)
  exact literalCount_eq_ok_iff.mpr
    ⟨literal.1, number, written, (Bit.word_eq_of_value? written).symm⟩

theorem isLiteral_of_literalCount
    {bits : List Bit}
    {count : Int32}
    (counted : literalCount bits = .ok count) :
    Bit.IsLiteral bits := by
  obtain ⟨narrow, number, written, -⟩ := literalCount_eq_ok_iff.mp counted
  exact ⟨narrow, Bit.value?_ne_none_iff.mp (by simp [written])⟩

/-- A literal is made for a vector of zeros and ones that has no producer. -/
theorem resolve_literal
    {design : Design}
    {bits : List Bit}
    (missing : design.table.find? bits = none)
    (literal : Bit.IsLiteral bits) :
    resolve bits design =
      .ok (some design.nodes.size) (design.withLiteral bits (Bit.word bits)) := by
  rw [resolve_run, missing, literalCount_of_isLiteral literal]
  simp only [literal.all_isConst, ↓reduceIte]

/-- No other vector gets a producer, and the design stays as it is. -/
theorem resolve_refused
    {design : Design}
    {bits : List Bit}
    (missing : design.table.find? bits = none)
    (other : ¬Bit.IsLiteral bits) :
    ∃ failure, resolve bits design = .error failure design := by
  rw [resolve_run, missing]
  by_cases constant : bits.all (·.isConst)
  · cases counted : literalCount bits with
    | ok count => exact absurd (isLiteral_of_literalCount counted) other
    | error failure => exact ⟨failure, by simp only [constant, ↓reduceIte]⟩
  · exact ⟨_, by simp only [constant]; rfl⟩

end Design

/-- Bit vectors with the producers that were registered for them, in order. -/
abbrev Registrations := List (List Bit × Option Nat)

namespace Registrations

/-- The producer that was registered last for a vector. -/
def latest? (log : Registrations) (bits : List Bit) : Option (Option Nat) :=
  log.reverse.lookup bits

/-- The registered vectors, in the order in which they came first. -/
def vectors (log : Registrations) : List (List Bit) :=
  (log.map (·.1)).eraseDups

theorem latest?_concat
    (log : Registrations)
    (bits : List Bit)
    (node : Option Nat)
    (asked : List Bit) :
    latest? (log ++ [(bits, node)]) asked =
      if asked = bits then some node else latest? log asked := by
  rw [latest?, List.reverse_append, List.reverse_singleton, List.singleton_append]
  by_cases same : asked = bits
  · simp [same]
  · have different : (asked == bits) = false := by simpa using same
    simp [latest?, List.lookup_cons, same, different]

theorem latest?_eq_none_iff
    {log : Registrations}
    {bits : List Bit} :
    latest? log bits = none ↔ bits ∉ vectors log := by
  rw [latest?, List.lookup_eq_none_iff, vectors, List.mem_eraseDups]
  simp only [List.mem_reverse, List.mem_map, bne_iff_ne]
  grind

theorem vectors_concat_of_new
    {log : Registrations}
    {bits : List Bit}
    (new : latest? log bits = none)
    (node : Option Nat) :
    vectors (log ++ [(bits, node)]) = vectors log ++ [bits] := by
  have missing := latest?_eq_none_iff.mp new
  rw [vectors, List.mem_eraseDups] at missing
  rw [vectors, List.map_append, List.eraseDups_append]
  simp [List.removeAll, vectors, missing, List.eraseDups_cons]

theorem vectors_concat_of_known
    {log : Registrations}
    {bits : List Bit}
    (known : latest? log bits ≠ none)
    (node : Option Nat) :
    vectors (log ++ [(bits, node)]) = vectors log := by
  have member := not_not.mp (mt latest?_eq_none_iff.mpr known)
  rw [vectors, List.mem_eraseDups] at member
  rw [vectors, List.map_append, List.eraseDups_append]
  simp [List.removeAll, vectors, member]

end Registrations

namespace Table

/-- A table finds the last producer of each registered vector, and lists nothing else. -/
structure Records (table : Table) (log : Registrations) : Prop where
  find?_eq : ∀ bits, table.find? bits = log.latest? bits
  entries :
    List.Forall₂
      (fun entry bits => entry.1 = Bit.vectorText bits ∧ log.latest? bits = some entry.2)
      table.entries log.vectors

theorem records_nil : Records {} [] :=
  ⟨fun _ => rfl, .nil⟩

/-- The producer of a known vector is replaced in its place. -/
theorem entries_add_of_known
    {table : Table}
    {bits : List Bit}
    (known : table.find? bits ≠ none)
    (node : Option Nat) :
    (table.add bits node).entries =
      table.entries.map fun entry =>
        if entry.1 = Bit.vectorText bits then (Bit.vectorText bits, node) else entry := by
  have present := not_not.mp (mt find?_eq_none_iff.mpr known)
  simp only [add, present]
  rfl

namespace Records

variable {table : Table} {log : Registrations}

theorem add
    (records : table.Records log)
    (bits : List Bit)
    (node : Option Nat) :
    (table.add bits node).Records (log ++ [(bits, node)]) where
  find?_eq asked := by
    rw [find?_add, Registrations.latest?_concat, records.find?_eq]
  entries := by
    simp only [Registrations.latest?_concat]
    cases found : table.find? bits with
    | none =>
        have new : log.latest? bits = none := (records.find?_eq bits).symm.trans found
        rw [entries_add found, Registrations.vectors_concat_of_new new]
        apply List.rel_append
        · apply records.entries.imp
          rintro entry vector ⟨key, latest⟩
          have different : vector ≠ bits := by
            rintro rfl
            rw [new] at latest
            cases latest
          exact ⟨key, (if_neg different).trans latest⟩
        · exact .cons ⟨rfl, if_pos rfl⟩ .nil
    | some old =>
        have known : log.latest? bits ≠ none := by simp [← records.find?_eq, found]
        rw [entries_add_of_known (by simp [found]), Registrations.vectors_concat_of_known known,
          List.forall₂_map_left_iff]
        apply records.entries.imp
        rintro entry vector ⟨key, latest⟩
        -- An entry is replaced by its key, and no other vector has that key.
        by_cases same : vector = bits
        · simp [key, same]
        · have differentKey : Bit.vectorText vector ≠ Bit.vectorText bits :=
            fun sameKey => same (Bit.vectorText_injective sameKey)
          simp [key, same, differentKey, latest]

theorem nodes_eq
    (records : table.Records log) :
    table.nodes.map some = log.vectors.map log.latest? := by
  rw [nodes, List.map_map, ← List.forall₂_eq_eq_eq, List.forall₂_map_left_iff,
    List.forall₂_map_right_iff]
  exact records.entries.imp fun _ _ listed => listed.2.symm

end Records

end Table

/-- A call on the table of a design. -/
inductive TableCall where
  | add (bits : List Bit) (node : Option Nat)
  | input (bits : List Bit)
  | resolve (bits : List Bit)
  deriving Repr, DecidableEq

namespace TableCall

/-- Make a call. The answer is the producer that the vector has then. -/
def run : TableCall → Synthesis (Option Nat)
  | add bits node => do
      Design.register bits node
      return node
  | input bits => do
      return some (← Design.registerInput bits)
  | resolve bits => Design.resolve bits

/-- What an answered call registers. Asking for a vector that has a producer registers nothing. -/
def registered (log : Registrations) (answer : Option Nat) : TableCall → Registrations
  | add bits _ | input bits => [(bits, answer)]
  | resolve bits => if log.latest? bits = none then [(bits, answer)] else []

/-- A call leaves the table with the registration that it makes. -/
theorem run_ensures
    {design : Design}
    {log : Registrations}
    (records : design.table.Records log)
    (call : TableCall) :
    Ensures (call.run design)
      (fun answer later => later.table.Records (log ++ call.registered log answer))
      (fun _ later => later.table = design.table) := by
  cases call with
  | add bits node =>
      exact records.add bits node
  | input bits =>
      exact records.add bits (some design.nodes.size)
  | resolve bits =>
      cases known : log.latest? bits with
      | some node =>
          have found : design.table.find? bits = some node := (records.find?_eq bits).trans known
          simp only [run, registered, Design.resolve_run, found, known, reduceCtorEq, ↓reduceIte,
            List.append_nil]
          exact records
      | none =>
          have missing : design.table.find? bits = none := (records.find?_eq bits).trans known
          by_cases literal : Bit.IsLiteral bits
          · rw [run, Design.resolve_literal missing literal]
            simp only [registered, known, ↓reduceIte]
            exact records.add bits (some design.nodes.size)
          · obtain ⟨failure, refused⟩ := Design.resolve_refused missing literal
            rw [run, refused]
            rfl

end TableCall

/-- The designs that calls on a table lead to, with the registrations that the calls made. Between
two calls a design changes in any way that leaves the table alone. -/
inductive TableHistory : Registrations → Design → Prop where
  | start
      {design : Design}
      (empty : design.table = {}) :
      TableHistory [] design
  | elsewhere
      {log : Registrations}
      {design later : Design}
      (history : TableHistory log design)
      (same : later.table = design.table) :
      TableHistory log later
  | answered
      {log : Registrations}
      {design later : Design}
      {answer : Option Nat}
      (call : TableCall)
      (history : TableHistory log design)
      (ran : call.run design = .ok answer later) :
      TableHistory (log ++ call.registered log answer) later
  | refused
      {log : Registrations}
      {design later : Design}
      {failure : Failure}
      (call : TableCall)
      (history : TableHistory log design)
      (ran : call.run design = .error failure later) :
      TableHistory log later

namespace TableHistory

theorem records
    {log : Registrations}
    {design : Design}
    (history : TableHistory log design) :
    design.table.Records log := by
  induction history with
  | start empty =>
      rw [empty]
      exact Table.records_nil
  | elsewhere _ same inductionHypothesis =>
      rw [same]
      exact inductionHypothesis
  | answered call _ ran inductionHypothesis =>
      have ensured := TableCall.run_ensures inductionHypothesis call
      rw [ran] at ensured
      exact ensured
  | refused call _ ran inductionHypothesis =>
      have kept := TableCall.run_ensures inductionHypothesis call
      rw [ran] at kept
      exact kept ▸ inductionHypothesis

/-- Vectors are told apart. A vector is resolved to the producer that was registered for it last.
Without one, a literal with the value of the vector is made and registered if all its bits, at most
32, are zeros and ones, and otherwise nothing changes. The nodes of the table are the last
producers, in the order in which their vectors were first registered. -/
theorem table_maps_vectors
    {log : Registrations}
    {design : Design}
    (history : TableHistory log design) :
    Function.Injective Bit.vectorText ∧
      (∀ bits node,
        log.latest? bits = some node → Design.resolve bits design = .ok node design) ∧
      (∀ bits, log.latest? bits = none → Bit.IsLiteral bits →
        ∃ later count,
          Design.resolve bits design = .ok (some design.nodes.size) later ∧
          later.nodes = design.nodes.push { kind := .literal design.board.size } ∧
          later.board =
            design.board.add (.constant true [{ signal := .value, count := count, index := 1 }]) ∧
          (∀ place, count.toBitVec.getLsbD place = decide (bits[place]? = some .one)) ∧
          Design.resolve bits later = .ok (some design.nodes.size) later) ∧
      (∀ bits, log.latest? bits = none → ¬Bit.IsLiteral bits →
        ∃ failure, Design.resolve bits design = .error failure design) ∧
      design.table.nodes.map some = log.vectors.map log.latest? := by
  have records := history.records
  refine ⟨@Bit.vectorText_injective, ?_, ?_, ?_, records.nodes_eq⟩
  · intro bits node latest
    rw [Design.resolve_run, records.find?_eq, latest]
  · intro bits new literal
    have missing := (records.find?_eq bits).trans new
    refine ⟨_, Bit.word bits, Design.resolve_literal missing literal, rfl, rfl,
      literal.getLsbD_word, ?_⟩
    have entered :
        (design.withLiteral bits (Bit.word bits)).table.find? bits =
          some (some design.nodes.size) := by
      simp [Design.withLiteral, Design.enter, Table.find?_add]
    rw [Design.resolve_run, entered]
  · intro bits new other
    exact Design.resolve_refused ((records.find?_eq bits).trans new) other

/-- An input gives up its place to a literal, and a later literal stays behind an earlier one. -/
theorem table_maps_vectors_replaced_input :
    ∃ design,
      TableHistory
          [([⟨2⟩], some 0), ([.one, .zero, .one], some 1), ([.one], some 2), ([⟨2⟩], some 1)]
          design ∧
        Design.resolve [⟨2⟩] design = .ok (some 1) design ∧
        (∃ later, Design.resolve [.zero, .one] design = .ok (some 3) later) ∧
        (∃ failure, Design.resolve [.x] design = .error failure design) ∧
        design.table.nodes.map some = [some (some 1), some (some 1), some (some 2)] := by
  have started : TableHistory [] {} := .start rfl
  have entered := started.answered (.input [⟨2⟩]) rfl
  have first := entered.answered (.resolve [.one, .zero, .one]) rfl
  have second := first.answered (.resolve [.one]) rfl
  have replaced := second.answered (.add [⟨2⟩] (some 1)) rfl
  obtain ⟨-, known, made, refused, nodes⟩ := table_maps_vectors replaced
  obtain ⟨later, -, literal, -⟩ := made [.zero, .one] (by decide) (by decide)
  exact ⟨_, replaced, known [⟨2⟩] (some 1) (by decide), ⟨later, literal⟩,
    refused [.x] (by decide) (by decide), nodes⟩

end TableHistory

end CircuitNetwork
