import CircuitNetwork.Proofs.Synthesis.Sources

namespace CircuitNetwork

/-!
# How designs come about

A design is built by adding nodes, by registering producers, in one table or in
several, and by connecting nodes, in any order. Operations may fail and leave what
they did. In whatever way a design was built, its entities belong to its nodes and
its inlets have one source each.
-/

/-- No entity has been given a number. -/
def Board.Unnumbered (board : Board) : Prop :=
  ∀ id, (board.entity id).number = 0

theorem Board.Unnumbered.install
    {board : Board}
    (unnumbered : board.Unnumbered)
    (part : Part) :
    (board.install part).Unnumbered := by
  have ofBody (body : Body) : (Entity.ofBody body).number = 0 := by
    unfold Entity.ofBody
    split <;> rfl
  intro id
  have before := unnumbered id
  simp only [entity, Array.getD_eq_getD_getElem?, entities_install,
    Array.getElem?_append] at before ⊢
  split
  · exact before
  · cases found : ((part.bodies.map Entity.ofBody).toArray)[id - board.entities.size]? with
    | none => rfl
    | some entity =>
        rw [List.getElem?_toArray, List.getElem?_map] at found
        obtain ⟨body, -, rfl⟩ := Option.map_eq_some_iff.mp found
        exact ofBody body

namespace Design

open Relation

variable {design later : Design}

/-- A node that is asked for. -/
inductive Addition where
  | input (bits : List Bit)
  | literal (bits : List Bit)
  | tap (point : Option Endpoint)
  | output (bits : List Bit)
  | comparison (comparator : Comparator) (a b : List Bit)
  | operation (operator : Operator) (a b : List Bit)
  | mux (a b select : List Bit)
  | memory (cell : Cell)

/-- Add a node and return its identity. -/
def Addition.make : Addition → Synthesis Nat
  | input bits => addInput bits
  | literal bits => addLiteral bits
  | tap point => addNode (.tap point)
  | output bits => addOutput bits
  | comparison comparator a b => addComparison comparator a b
  | operation operator a b => addOperation operator a b
  | mux a b select => addMux a b select
  | memory cell => Prod.fst <$> addMemory cell

/-- Add a node. -/
def Addition.run (addition : Addition) : Synthesis Unit :=
  discard addition.make

/-- The design that an operation leaves, whether it succeeds or fails. -/
def after {α : Type} (operation : Synthesis α) (design : Design) : Design :=
  match operation design with
  | .ok _ later => later
  | .error _ later => later

theorem after_map
    {α β : Type}
    (operation : Synthesis α)
    (change : α → β)
    (design : Design) :
    after (change <$> operation) design = after operation design := by
  simp only [after, Functor.map, EStateM.map]
  cases operation design <;> rfl

theorem after_run
    (addition : Addition)
    (design : Design) :
    after addition.run design = after addition.make design :=
  after_map addition.make (fun _ => PUnit.unit) design

/-- What holds whether an operation succeeds or fails holds of the design that it leaves. -/
theorem after_of_ensures
    {α : Type}
    {operation : Synthesis α}
    {motive : Design → Prop}
    (ensured :
      Ensures (operation design) (fun _ later => motive later) (fun _ later => motive later)) :
    motive (after operation design) := by
  unfold after
  cases ran : operation design with
  | ok value later =>
      rw [ran] at ensured
      exact ensured
  | error failure later =>
      rw [ran] at ensured
      exact ensured

/-- A design of nodes alone. -/
def ofAdditions (additions : List Addition) : Design :=
  additions.foldl (fun design addition => after addition.run design) {}

/-- An operation that returns something leaves the design it succeeds with. -/
theorem eq_ok_after
    {α : Type}
    {operation : Synthesis α}
    {value : α}
    (returns : operation.run' design = some value) :
    operation design = .ok value (after operation design) := by
  delta EStateM.run' EStateM.run at returns
  cases ran : operation design with
  | ok returned later =>
      rw [ran] at returns
      cases returns
      rw [after, ran]
  | error failure later =>
      rw [ran] at returns
      cases returns

/-- Nodes that need no new entities are added one after another. -/
theorem mapM_addNode_run
    {α : Type}
    (kindOf : α → NodeKind)
    (items : List α)
    (design : Design) :
    items.mapM (fun item => addNode (kindOf item)) design =
      .ok ((List.range items.length).map (design.nodes.size + ·))
        { design with
          nodes := design.nodes ++ (items.map fun item => ({ kind := kindOf item } : Node)).toArray } := by
  induction items generalizing design with
  | nil =>
      simp
  | cons item rest inductionHypothesis =>
      have restRun := inductionHypothesis (design.push ⟨[], []⟩ (kindOf item))
      rw [List.mapM_cons, bind_of_ok (addNode_run design (kindOf item)), bind_of_ok restRun]
      simp [push, Board.install, Board.addAll, List.range_succ_eq_map, Nat.add_assoc, Nat.add_comm 1]

/-- A design with a memory more and its read ports. -/
def withMemory (design : Design) (bank : Bank) : Design :=
  let pushed := design.push (Bank.part bank.geometry) (.memory bank)
  let port (index : Nat) : Node :=
    { kind := .readPort design.nodes.size index (bank.portBits index) (bank.portOutput index) }
  { pushed with
    nodes := pushed.nodes ++ ((List.range bank.geometry.readPorts).map port).toArray }

theorem addMemory_run
    {cell : Cell}
    {bank : Bank}
    (accepted : Bank.ofCell cell design.board.size = .ok bank) :
    addMemory cell design =
      .ok (design.nodes.size,
          (List.range bank.geometry.readPorts).map (design.nodes.size + 1 + ·))
        (design.withMemory bank) := by
  have rows := (Bank.buildable_of_ofCell accepted).size
  have installed := installNode_run design (Bank.part bank.geometry) fun _ => .memory bank
  have ported := mapM_addNode_run
    (fun port => .readPort design.nodes.size port (bank.portBits port) (bank.portOutput port))
    (List.range bank.geometry.readPorts) (design.push (Bank.part bank.geometry) (.memory bank))
  rw [List.length_range, size_push] at ported
  rw [addMemory, bind_of_ok (get_run design), accepted]
  simp only [bind_of_ok installed, addPort_eq rows, bind_of_ok ported]
  rfl

theorem addMemory_run_of_error
    {cell : Cell}
    {failure : Failure}
    (refused : Bank.ofCell cell design.board.size = .error failure) :
    addMemory cell design = .error failure design := by
  rw [addMemory, bind_of_ok (get_run design), refused]
  rfl

@[simp] theorem size_withMemory
    (design : Design)
    (bank : Bank) :
    (design.withMemory bank).nodes.size = design.nodes.size + 1 + bank.geometry.readPorts := by
  simp [withMemory]

/-- The nodes of a new memory follow those that were there. -/
theorem node_withMemory
    (design : Design)
    (bank : Bank)
    (id : Nat) :
    (design.withMemory bank).node id =
      if id = design.nodes.size then
        { kind := .memory bank }
      else if design.nodes.size < id ∧ id < design.nodes.size + 1 + bank.geometry.readPorts then
        let index := id - (design.nodes.size + 1)
        { kind := .readPort design.nodes.size index (bank.portBits index) (bank.portOutput index) }
      else
        design.node id := by
  have pushed := design.node_push (Bank.part bank.geometry) (.memory bank) id
  simp only [node, withMemory, Array.getD_eq_getD_getElem?, Array.getElem?_append, size_push,
    List.getElem?_toArray, List.getElem?_map] at pushed ⊢
  grind

/-- The nodes that an addition may add to a design. -/
def Addition.Makes (design : Design) : Addition → NodeKind → Prop
  | input bits, kind => kind = .input bits design.board.size
  | literal _, kind => kind = .literal design.board.size
  | tap point, kind => kind = .tap point
  | output bits, kind => kind = .output bits design.board.size
  | comparison comparator a b, kind =>
      kind = .gate ("compare " ++ comparator.symbol) a b design.board.size
  | operation operator a b, kind =>
      kind = .gate ("binary " ++ operator.symbol) a b design.board.size
  | mux a b select, kind => kind = .mux a b select design.board.size
  | memory cell, kind =>
      ∃ bank, Bank.ofCell cell design.board.size = .ok bank ∧
        (kind = .memory bank ∨
          ∃ index, kind =
            .readPort design.nodes.size index (bank.portBits index) (bank.portOutput index))

/-- A node was there before an addition or was made by it. -/
theorem Addition.kind_cases
    (addition : Addition)
    (design : Design)
    (id : Nat) :
    ((after addition.run design).node id).kind = (design.node id).kind ∨
      addition.Makes design ((after addition.run design).node id).kind := by
  have pushed (part : Part) (kind : NodeKind) :
      ((design.push part kind).node id).kind = (design.node id).kind ∨
        ((design.push part kind).node id).kind = kind := by
    rw [node_push]
    split
    · exact .inr rfl
    · exact .inl rfl
  cases addition with
  | literal bits =>
      rw [after_run, Addition.make, after, addLiteral]
      cases literalCount bits with
      | error failure => exact .inl rfl
      | ok count => exact pushed ⟨[.ofCount count], []⟩ _
  | memory cell =>
      rw [after_run, Addition.make, after_map, after]
      cases accepted : Bank.ofCell cell design.board.size with
      | error failure =>
          rw [addMemory_run_of_error accepted]
          exact .inl rfl
      | ok bank =>
          rw [addMemory_run accepted]
          simp only [node_withMemory]
          split
          · exact .inr ⟨bank, accepted, .inl rfl⟩
          · split
            · exact .inr ⟨bank, accepted, .inr ⟨_, rfl⟩⟩
            · exact .inl rfl
  | tap point => exact pushed ⟨[], []⟩ (.tap point)
  | _ => exact pushed _ _

/-- The entries of a table name nodes of the design. -/
def Names (design : Design) (table : Table) : Prop :=
  ∀ bits node, table.find? bits = some node → ∃ id, node = some id ∧ id < design.nodes.size

theorem names_empty
    (design : Design) :
    design.Names {} := by
  intro bits node found
  cases found

theorem Names.add
    {table : Table}
    (names : design.Names table)
    (bits : List Bit)
    {id : Nat}
    (inRange : id < design.nodes.size) :
    design.Names (table.add bits (some id)) := by
  intro asked node found
  rw [Table.find?_add] at found
  split at found
  · cases found
    exact ⟨id, rfl, inRange⟩
  · exact names asked node found

theorem Formed.names
    (formed : design.Formed) :
    design.Names design.table := by
  intro bits node found
  cases node with
  | none => exact absurd found formed.known
  | some id => exact ⟨id, rfl, formed.registered found⟩

/-- What can be done to a design. -/
inductive Builds (design : Design) : Design → Prop where
  | add (addition : Addition) :
      Builds design (after addition.run design)
  | use {table : Table} (names : design.Names table) :
      Builds design { design with table := table }
  | connect {id : Nat} (inRange : id < design.nodes.size) :
      Builds design (after (connect resolve id) design)

/-- A design that was built from nothing. -/
def Built (design : Design) : Prop :=
  ReflTransGen Builds {} design

theorem built_ofAdditions
    (additions : List Addition) :
    (ofAdditions additions).Built :=
  List.foldlRecOn additions _ ReflTransGen.refl fun _ before addition _ =>
    ReflTransGen.tail before (.add addition)

/-- A coherent design in which no wiring is under way. -/
structure Standing (design : Design) : Prop where
  coherent : design.Coherent
  quiet : ∀ id, (design.node id).wiring ≠ .busy

/-- What adding a node consists of: a part is installed, and a node that stands on it is added. A
read port comes after its memory. -/
inductive Pushes (design : Design) : Design → Prop where
  | push
      {part : Part}
      {kind : NodeKind}
      (entities : kind.entities = (List.range part.bodies.length).map (design.board.size + ·))
      (wires : kind.wires = part.wiresAt design.board.size)
      (stands : kind.Stands (design.board.install part))
      (ports :
        ∀ {memory index bits point}, kind = .readPort memory index bits point →
          ∃ bank, memory < design.nodes.size ∧ (design.node memory).kind = .memory bank ∧
            index < bank.geometry.readPorts ∧ point = bank.portOutput index) :
      Pushes design (design.push part kind)

namespace Pushes

/-- A node that is no read port. -/
theorem plain
    (part : Part)
    (kind : NodeKind)
    (entities : kind.entities = (List.range part.bodies.length).map (design.board.size + ·))
    (wires : kind.wires = part.wiresAt design.board.size)
    (stands : kind.Stands (design.board.install part))
    (noPort : ∀ memory index bits point, kind ≠ .readPort memory index bits point) :
    ReflTransGen Pushes design (design.push part kind) :=
  .single (.push entities wires stands fun isPort => absurd isPort (noPort _ _ _ _))

/-- The read ports of a memory are added one after another. -/
theorem mapM_readPort
    {memory : Nat}
    {bank : Bank}
    (isMemory : (design.node memory).kind = .memory bank)
    (ports : List Nat)
    (inRange : ∀ port ∈ ports, port < bank.geometry.readPorts) :
    ∃ ids later,
      ports.mapM (fun port =>
          addNode (.readPort memory port (bank.portBits port) (bank.portOutput port))) design =
        .ok ids later ∧ ReflTransGen Pushes design later := by
  induction ports generalizing design with
  | nil =>
      exact ⟨[], design, rfl, .refl⟩
  | cons port rest inductionHypothesis =>
      have memoryInRange := inRange_of_kind_eq isMemory rfl
      let kind : NodeKind := .readPort memory port (bank.portBits port) (bank.portOutput port)
      have pushes : Pushes design (design.push ⟨[], []⟩ kind) := by
        refine .push rfl rfl trivial ?_
        intro _ _ _ _ same
        obtain ⟨rfl, rfl, rfl, rfl⟩ := NodeKind.readPort.inj same
        exact ⟨bank, memoryInRange, isMemory, inRange port List.mem_cons_self, rfl⟩
      have stillMemory : ((design.push ⟨[], []⟩ kind).node memory).kind = .memory bank := by
        rw [(grows_push design ⟨[], []⟩ kind).kind_eq memoryInRange, isMemory]
      obtain ⟨ids, later, ran, pushesOn⟩ := inductionHypothesis stillMemory
        fun other member => inRange other (List.mem_cons_of_mem _ member)
      refine ⟨design.nodes.size :: ids, later, ?_, pushesOn.head pushes⟩
      rw [List.mapM_cons, bind_of_ok (addNode_run design kind), bind_of_ok ran]
      rfl

/-- A memory is added with its read ports, or refused. -/
theorem addMemory
    (design : Design)
    (cell : Cell) :
    ReflTransGen Pushes design (after (Design.addMemory cell) design) := by
  rw [after, Design.addMemory, bind_of_ok (get_run design)]
  cases accepted : Bank.ofCell cell design.board.size with
  | error failure =>
      exact .refl
  | ok bank =>
      have first := Blueprint.first_eq accepted
      have rows := (Bank.buildable_of_ofCell accepted).size
      let pushed := design.push (Bank.part bank.geometry) (.memory bank)
      have pushes : ReflTransGen Pushes design pushed := by
        refine plain (Bank.part bank.geometry) (.memory bank) ?_ ?_ ⟨rows, ?_⟩ (by simp)
        · rw [NodeKind.entities, first, Blueprint.length_bodies_part]
        · rw [NodeKind.wires, first]
        · intro entity member
          rw [NodeKind.entities, first] at member
          obtain ⟨place, inRange, rfl⟩ := List.mem_map.mp member
          rw [List.mem_range, ← Blueprint.length_bodies_part] at inRange
          rw [design.board.body_install _ place (List.getElem?_eq_getElem inRange)]
          exact Bank.outputPort_of_mem_bodies (List.getElem_mem inRange)
      have isMemory : (pushed.node design.nodes.size).kind = .memory bank := by
        rw [node_push, if_pos rfl]
      obtain ⟨ids, later, ran, pushesOn⟩ := mapM_readPort isMemory
        (List.range bank.geometry.readPorts) (by simp)
      have installed : installNode (Bank.part bank.geometry) (fun _ => .memory bank) design =
          .ok design.nodes.size pushed := rfl
      simp only [bind_of_ok installed, addPort_eq rows, bind_of_ok ran]
      exact pushes.trans pushesOn

/-- Every addition only pushes nodes. -/
theorem of_addition
    (design : Design)
    (addition : Addition) :
    ReflTransGen Pushes design (after addition.run design) := by
  have body (part : Part) (place : Nat) {body : Body} (found : part.bodies[place]? = some body) :=
    design.board.body_install part place found
  cases addition with
  | input bits =>
      exact plain ⟨[.ofCount 0], []⟩ (.input bits _) rfl rfl (body _ 0 rfl) (by simp)
  | tap point =>
      exact plain ⟨[], []⟩ (.tap point) rfl rfl trivial (by simp)
  | output bits =>
      exact plain ⟨[.ofFilters []], []⟩ (.output bits _) rfl rfl (body _ 0 rfl) (by simp)
  | comparison comparator a b =>
      exact plain (gatePart (CircuitNetwork.comparison comparator)) (.gate _ a b _) rfl rfl
        ⟨body _ 0 rfl, .inl ⟨comparator, body _ 1 rfl⟩⟩ (by simp)
  | operation operator a b =>
      exact plain (gatePart (CircuitNetwork.operation operator)) (.gate _ a b _) rfl rfl
        ⟨body _ 0 rfl, .inr ⟨operator, body _ 1 rfl⟩⟩ (by simp)
  | mux a b select =>
      exact plain muxPart (.mux a b select _) rfl rfl
        ⟨body _ 0 rfl, body _ 1 rfl, body _ 2 rfl⟩ (by simp)
  | memory cell =>
      rw [after_run, Addition.make, after_map]
      exact addMemory design cell
  | literal bits =>
      rw [after_run, Addition.make, after, addLiteral]
      cases literalCount bits with
      | error failure => exact .refl
      | ok count =>
          exact plain ⟨[.ofCount count], []⟩ (.literal _) rfl rfl ⟨count, body _ 0 rfl⟩ (by simp)

theorem grows
    (pushes : Pushes design later) :
    Grows design later := by
  cases pushes with
  | push => exact grows_push design _ _

theorem wiring_eq
    (pushes : Pushes design later)
    (id : Nat) :
    (later.node id).wiring = (design.node id).wiring := by
  cases pushes with
  | push =>
      rw [node_push]
      split
      · rename_i isNew
        by_contra begun
        exact absurd (inRange_of_wiring (Ne.symm begun)) (by omega)
      · rfl

end Pushes

/-- What is kept whenever a node is pushed is kept by every addition. -/
theorem Addition.preserves
    {motive : Design → Prop}
    (addition : Addition)
    (start : motive design)
    (step : ∀ {design later}, motive design → Pushes design later → motive later) :
    motive (after addition.run design) := by
  have pushes := Pushes.of_addition design addition
  generalize after addition.run design = later at pushes
  induction pushes with
  | refl =>
      exact start
  | tail _ pushes inductionHypothesis =>
      exact step inductionHypothesis pushes

/-- Connecting a node takes steps of a wiring, whether it succeeds or fails. -/
theorem passes_connect
    (formed : design.Formed)
    {id : Nat}
    (inRange : id < design.nodes.size)
    (quiet : ∀ other, (design.node other).wiring ≠ .busy) :
    Passes design (after (connect resolve id) design) :=
  after_of_ensures ((connect_ensures formed inRange quiet).mono (fun _ _ ended => ended.1)
    fun _ _ ended => ended.1)

namespace Standing

theorem empty : Standing {} where
  coherent :=
    { formed := Unwired.empty.formed
      grounded := by constructor <;> intros <;> simp_all
      laced := ⟨[], Board.spans_of_unwired rfl, by simp, by simp, by simp⟩ }
  quiet id busy := by
    have idle := Unwired.empty.idle id
    rw [busy] at idle
    cases idle

/-- Adding a node leaves a standing design. -/
theorem push
    (standing : design.Standing)
    (pushes : Pushes design later) :
    later.Standing := by
  refine ⟨?_, fun id => by rw [pushes.wiring_eq]; exact standing.quiet id⟩
  obtain ⟨⟨formed, grounded, feeds, laced⟩, -⟩ := standing
  cases pushes with
  | @push part kind entities wires stands ports =>
      refine ⟨formed.push part ?_, grounded.push entities stands ports, feeds,
        laced.push formed part kind wires⟩
      intro memory index bits point isPort
      obtain ⟨bank, inRange, -⟩ := ports isPort
      exact inRange

theorem connect
    (standing : design.Standing)
    {id : Nat}
    (inRange : id < design.nodes.size) :
    Passes design (after (Design.connect resolve id) design) :=
  passes_connect standing.coherent.formed inRange standing.quiet

theorem passes
    (standing : design.Standing)
    (passes : Passes design later) :
    later.Standing :=
  ⟨standing.coherent.advances passes.steps,
    fun other busy => standing.quiet other ((passes.busy other).mp busy)⟩

/-- Another table may be used between operations. -/
theorem withTable
    (standing : design.Standing)
    {table : Table}
    (names : design.Names table) :
    Standing { design with table := table } := by
  obtain ⟨⟨formed, grounded, feeds, laced⟩, quiet⟩ := standing
  refine ⟨⟨?_, grounded.of_kind_eq rfl (fun _ => rfl) rfl (fun _ => rfl), feeds,
    laced.withTable fun id wire busy => absurd busy (quiet id)⟩, quiet⟩
  exact
    { tidy := formed.tidy
      known := fun {bits} found => by
        obtain ⟨id, same, -⟩ := names bits none found
        cases same
      registered := fun {bits id} found => by
        obtain ⟨other, same, inRange⟩ := names bits (some id) found
        cases same
        exact inRange
      memories := formed.memories
      ordinary := formed.ordinary }

end Standing

/-- A design still has all nodes of an earlier one, and all outcomes of wirings. -/
structure Kept (design later : Design) : Prop where
  size_le : design.nodes.size ≤ later.nodes.size
  kind_eq : ∀ {id}, id < design.nodes.size → (later.node id).kind = (design.node id).kind
  done_eq :
    ∀ {id outcome},
      (design.node id).wiring = .done outcome → (later.node id).wiring = .done outcome

namespace Kept

theorem refl (design : Design) : Kept design design :=
  ⟨Nat.le_refl _, fun _ => rfl, fun done => done⟩

theorem trans
    {last : Design}
    (first : Kept design later)
    (second : Kept later last) :
    Kept design last where
  size_le := Nat.le_trans first.size_le second.size_le
  kind_eq inRange :=
    (second.kind_eq (Nat.lt_of_lt_of_le inRange first.size_le)).trans (first.kind_eq inRange)
  done_eq done := second.done_eq (first.done_eq done)

end Kept

/-- Whatever is done to a design, it stays standing and keeps its nodes. -/
theorem Builds.standing
    (builds : Builds design later)
    (standing : design.Standing) :
    later.Standing ∧ Kept design later := by
  cases builds with
  | add addition =>
      refine addition.preserves
        (motive := fun later => later.Standing ∧ Kept design later) ⟨standing, .refl design⟩ ?_
      rintro middle later ⟨before, kept⟩ pushes
      refine ⟨before.push pushes, kept.trans ⟨pushes.grows.size_le, pushes.grows.kind_eq, ?_⟩⟩
      intro id outcome done
      rw [pushes.wiring_eq, done]
  | use names =>
      exact ⟨standing.withTable names, Nat.le_refl _, fun _ => rfl, fun done => done⟩
  | connect inRange =>
      have passes := standing.connect inRange
      have follows := passes.steps.follows standing.coherent.formed
      exact ⟨standing.passes passes, follows.grows.size_le, follows.grows.kind_eq,
        follows.done_eq⟩

theorem standing_of_builds
    (standing : design.Standing)
    (builds : ReflTransGen Builds design later) :
    later.Standing ∧ Kept design later := by
  induction builds with
  | refl =>
      exact ⟨standing, .refl design⟩
  | tail _ step inductionHypothesis =>
      obtain ⟨middle, kept⟩ := inductionHypothesis
      obtain ⟨last, keptLast⟩ := step.standing middle
      exact ⟨last, kept.trans keptLast⟩

theorem Built.standing
    (built : design.Built) :
    design.Standing :=
  (standing_of_builds Standing.empty built).1

/-- Entities are numbered only when they are placed. -/
theorem Builds.unnumbered
    (builds : Builds design later)
    (standing : design.Standing)
    (unnumbered : design.board.Unnumbered) :
    later.board.Unnumbered := by
  cases builds with
  | add addition =>
      refine addition.preserves
        (motive := fun later => later.board.Unnumbered) unnumbered ?_
      rintro middle later before ⟨⟩
      exact before.install _
  | use names =>
      exact unnumbered
  | @connect id inRange =>
      have steps := (standing.connect inRange).steps
      generalize after (Design.connect resolve id) design = later at steps
      induction steps with
      | refl =>
          exact unnumbered
      | tail _ step inductionHypothesis =>
          cases step with
          | start | finish | giveUp =>
              exact inductionHypothesis
          | literal =>
              exact inductionHypothesis.install _
          | lay =>
              intro entity
              simp only [Board.entity, Board.entities_wire]
              exact inductionHypothesis entity

theorem Built.unnumbered
    (built : design.Built) :
    design.board.Unnumbered := by
  induction built with
  | refl =>
      exact fun _ => rfl
  | tail before step inductionHypothesis =>
      exact step.unnumbered (Built.standing before) inductionHypothesis

end Design

end CircuitNetwork
