import CircuitNetwork.Proofs.Arena
import CircuitNetwork.Proofs.Generator.Wiring

namespace CircuitNetwork.Blueprint

/-!
# Memory blueprints

The blueprint of an accepted memory has all entities of the memory, of its
inputs and of its outputs.
-/

open Design

/-- The entities of nodes are added in order. -/
theorem addNodes_run
    (design : Design)
    (nodes : List Nat)
    (board : Board)
    (arena : Arena)
    (distinct : (nodes.flatMap fun id => (design.node id).kind.entities).Nodup)
    (unnumbered :
      ∀ id ∈ nodes.flatMap fun id => (design.node id).kind.entities,
        (board.entity id).number = 0) :
    ∃ numbered,
      addNodes design (nodes.map some) (board, arena) =
          .ok () (numbered,
            ⟨arena.members ++ nodes.flatMap fun id => (design.node id).kind.entities⟩) ∧
        board.Alike numbered := by
  induction nodes generalizing board arena with
  | nil =>
      exact ⟨board, by simp [addNodes], Board.Alike.refl board⟩
  | cons id rest inductionHypothesis =>
      rw [List.flatMap_cons] at distinct unnumbered
      obtain ⟨firstDistinct, restDistinct, apart⟩ := List.nodup_append.mp distinct
      obtain ⟨middle, ran, alike, kept⟩ := Arena.add_run (design.node id).kind.entities
        firstDistinct board arena (fun entity member =>
          unnumbered entity (List.mem_append_left _ member))
      obtain ⟨numbered, ranOn, alikeOn⟩ := inductionHypothesis middle
        ⟨arena.members ++ (design.node id).kind.entities⟩ restDistinct (by
          intro entity member
          rw [kept entity (fun first => apart entity first entity member rfl)]
          exact unnumbered entity (List.mem_append_right _ member))
      refine ⟨numbered, ?_, alike.trans alikeOn⟩
      show (Arena.add (design.node id).kind.entities >>= fun _ =>
        addNodes design (rest.map some)) (board, arena) = _
      rw [bind_of_ok ran, ranOn, List.flatMap_cons, List.append_assoc]

theorem flatMap_range'
    {places : Nat → List Nat}
    {start count : Nat}
    (first : Nat)
    (single : ∀ index, index < count → places (start + index) = [first + index]) :
    (List.range' start count).flatMap places = List.range' first count := by
  rw [List.range'_eq_map_range, List.range'_eq_map_range, List.flatMap_map, List.map_eq_flatMap]
  exact List.flatMap_congr fun index member => single index (List.mem_range.mp member)

theorem flatMap_eq_nil
    {places : Nat → List Nat}
    {start count : Nat}
    (none : ∀ index, index < count → places (start + index) = []) :
    (List.range' start count).flatMap places = [] := by
  rw [List.flatMap_eq_nil_iff]
  intro node member
  obtain ⟨index, inRange, rfl⟩ := List.mem_range'.mp member
  simpa using none index inRange

theorem map_snd_inputEntries
    (vectors : List (List Bit))
    (node : Nat) :
    (inputEntries vectors node).map (·.2) =
      (List.range' node vectors.length).map some := by
  apply List.ext_getElem
  · simp [inputEntries]
  · intro index inLeft inRight
    simp [inputEntries]

/-- The nodes of a memory in the order in which their entities are numbered. -/
def nodeOrder (bank : Bank) : List Nat :=
  List.range' (1 + bank.geometry.readPorts) bank.inputVectors.length ++
    List.range' 1 bank.outputVectors.length ++
    0 :: List.range' (5 + 2 * bank.geometry.readPorts) bank.geometry.readPorts

/-- The entities of a memory in the order of their numbers: inputs, combinators, outputs. -/
def entityOrder (bank : Bank) : List Nat :=
  List.range' (Bank.entityCount bank.geometry) bank.inputVectors.length ++
    List.range (Bank.entityCount bank.geometry) ++
    List.range' (Bank.entityCount bank.geometry + bank.inputVectors.length)
      bank.geometry.readPorts

theorem flatMap_nodeOrder
    {design : Design}
    {bank : Bank}
    {bodies : List Body}
    {entries : List (String × Option Nat)}
    (first : bank.first = 0)
    (shape : design.HasShape (allKinds bank) bodies entries) :
    ((nodeOrder bank).flatMap fun id => (design.node id).kind.entities) = entityOrder bank := by
  have memory : (design.node 0).kind = .memory bank := shape.kind_eq rfl
  rw [nodeOrder, entityOrder, List.flatMap_append, List.flatMap_append, List.flatMap_cons]
  rw [flatMap_range' (Bank.entityCount bank.geometry), flatMap_eq_nil,
    flatMap_range' (Bank.entityCount bank.geometry + bank.inputVectors.length),
    memory, List.append_nil, List.append_assoc]
  · simp [NodeKind.entities, first]
  · intro port inRange
    rw [shape.kind_eq (getElem?_allKinds_output bank inRange)]
    rfl
  · intro port inRange
    rw [length_outputVectors] at inRange
    rw [shape.kind_eq (getElem?_allKinds (getElem?_memoryKinds_port bank inRange))]
    rfl
  · intro index inRange
    have found := getElem?_memoryKinds bank index
    rw [List.getElem?_eq_getElem inRange] at found
    rw [shape.kind_eq (getElem?_allKinds found)]
    rfl

theorem mem_entityOrder
    {bank : Bank}
    {id : Nat} :
    id ∈ entityOrder bank ↔ id < (allBodies bank).length := by
  simp only [entityOrder, List.mem_append, List.mem_range, List.mem_range', allBodies,
    List.length_append, length_bodies_part, List.length_replicate, length_outputVectors]
  constructor
  · rintro ((⟨index, inRange, rfl⟩ | inRange) | ⟨index, inRange, rfl⟩) <;> omega
  · intro inRange
    rcases Nat.lt_or_ge id (Bank.entityCount bank.geometry) with inMemory | above
    · exact .inl (.inr inMemory)
    · rcases Nat.lt_or_ge id
        (Bank.entityCount bank.geometry + bank.inputVectors.length) with isInput | isOutput
      · exact .inl (.inl ⟨id - Bank.entityCount bank.geometry, by omega, by omega⟩)
      · exact .inr ⟨id - (Bank.entityCount bank.geometry + bank.inputVectors.length),
          by omega, by omega⟩

theorem nodup_entityOrder
    (bank : Bank) :
    (entityOrder bank).Nodup := by
  rw [entityOrder, List.nodup_append, List.nodup_append]
  refine ⟨⟨List.nodup_range', List.nodup_range, ?_⟩, List.nodup_range', ?_⟩
  · intro input inputMember other otherMember
    simp only [List.mem_range', List.mem_range] at inputMember otherMember
    omega
  · intro before beforeMember terminal terminalMember
    simp only [List.mem_append, List.mem_range', List.mem_range] at beforeMember terminalMember
    omega

/-- The blueprint of a memory: a wired design whose entities are all in the arena. -/
structure Holds (blueprint : Blueprint) (bank : Bank) : Prop where
  wired :
    ∃ wired : Design,
      Complete wired bank ∧
        blueprint.design.nodes = wired.nodes ∧ blueprint.design.table = wired.table ∧
        wired.board.Alike blueprint.design.board
  members_eq : blueprint.arena.members = entityOrder bank

theorem arrange_run
    {design : Design}
    {bank : Bank}
    (first : bank.first = 0)
    (shape : design.HasShape (allKinds bank) (allBodies bank) (allEntries bank))
    (columns : Int) :
    ∃ blueprint,
      arrange columns design 0
            (List.range' (5 + 2 * bank.geometry.readPorts) bank.geometry.readPorts) =
          .ok blueprint ∧
        blueprint.design.nodes = design.nodes ∧ blueprint.design.table = design.table ∧
        design.board.Alike blueprint.design.board ∧
        blueprint.arena.members = entityOrder bank := by
  have entities := flatMap_nodeOrder first shape
  have ordered : design.table.nodes ++ some 0 ::
      (List.range' (5 + 2 * bank.geometry.readPorts) bank.geometry.readPorts).map some =
        (nodeOrder bank).map some := by
    rw [Table.nodes, shape.entries_eq, allEntries, List.map_append, map_snd_inputEntries,
      map_snd_inputEntries, nodeOrder, List.map_append, List.map_append, List.map_cons]
  obtain ⟨numbered, ran, alike⟩ := addNodes_run design (nodeOrder bank) design.board {}
    (entities ▸ nodup_entityOrder bank) (by
      intro id member
      rw [entities, mem_entityOrder] at member
      rw [shape.body_eq (List.getElem?_eq_getElem member), Entity.ofBody]
      split <;> rfl)
  rw [entities] at ran
  generalize arenaEq : Arena.mk (Arena.members {} ++ entityOrder bank) = arena at ran
  have layout := Arena.layout_alike arena columns numbered
  refine ⟨⟨{ design with board := arena.layout columns numbered }, arena⟩, ?_, rfl, rfl,
    alike.trans layout, by rw [← arenaEq]; rfl⟩
  rw [arrange, ordered, EStateM.run, ran]

/-- The vectors that inputs are made for are those that the memory asks for. -/
theorem inputVectors_eq
    {spec : MemorySpec}
    {cell : Cell}
    {bank : Bank}
    (accepted : Bank.ofCell cell 0 = .ok bank)
    (geometry : bank.geometry = spec.geometry) :
    inputVectors spec cell = bank.inputVectors := by
  simp only [Bank.ofCell, except_bind_eq_ok] at accepted
  obtain ⟨_, -, _, -, described⟩ := accepted
  cases described
  cases geometry
  rfl

theorem ofSpec_eq
    {spec : MemorySpec}
    {cell : Cell}
    {nets : Nets}
    (made : spec.cell.run {} = .ok cell nets)
    {memory : Nat}
    {outputs : List Nat}
    {design : Design}
    (wired : wire spec cell {} = .ok (memory, outputs) design)
    (columns : Int) :
    ofSpec spec columns = arrange columns design memory outputs := by
  unfold ofSpec
  split
  · rename_i failed
    rw [made] at failed
    cases failed
  · rename_i given
    rw [made] at given
    cases given
    simp only [EStateM.run, wired]

/-- The blueprint of a memory whose cell is accepted. -/
theorem ofSpec_run
    {spec : MemorySpec}
    (small : spec.Small)
    (addressed : 1 ≤ spec.addressBits.toInt)
    {cell : Cell}
    {nets : Nets}
    (made : spec.cell.run {} = .ok cell nets)
    {bank : Bank}
    (accepted : Bank.ofCell cell 0 = .ok bank)
    (columns : Int) :
    ∃ blueprint, ofSpec spec columns = .ok blueprint ∧ blueprint.Holds bank := by
  obtain ⟨rfl, buildable⟩ := Bank.ofCell_generated small made accepted
  have addressBits : 0 < spec.geometry.addressBits := by
    show 0 < spec.addressBits.toInt.toNat
    omega
  have distinct := Bank.nodup_vectors addressBits buildable.width.1
  obtain ⟨wired, ran, complete⟩ :=
    wire_run accepted (inputVectors_eq accepted rfl) distinct
  obtain ⟨blueprint, arranged, nodes, table, alike, members⟩ :=
    arrange_run rfl complete.shape columns
  refine ⟨blueprint, ?_, ⟨wired, complete, nodes, table, alike⟩, members⟩
  rw [ofSpec_eq made ran, arranged]

end CircuitNetwork.Blueprint
