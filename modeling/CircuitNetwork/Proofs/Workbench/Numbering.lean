import CircuitNetwork.Proofs.Arena
import CircuitNetwork.Proofs.Record
import CircuitNetwork.Proofs.Synthesis.Drafts
import CircuitNetwork.Workbench

namespace CircuitNetwork

/-!
# Numbers on a workbench

Entities and nodes are made, wired and added to arenas in any order, and what is
refused part of the way keeps what it did. Through all of this the members of an
arena have the numbers of their places, and no entity is in two arenas.
-/

/-- An end of an entity. -/
inductive Side where
  | input
  | output
  deriving Repr, DecidableEq

/-- The endpoint at an end of an entity. -/
def Side.point (board : Board) (id : Nat) : Side → Endpoint
  | input => board.input id
  | output => board.output id

/-- The endpoint at an end of an entity given by number. A missing one stays missing. -/
def Session.point : Option (Int × Side) → Session (Option Endpoint)
  | none => return none
  | some (number, side) => do
      let id ← Session.entity number
      return some (side.point (← Session.board) id)

/-- A node given by number. A missing one stays missing. -/
def Session.node? : Option Int → Session (Option Nat)
  | none => return none
  | some number => do return some (← Session.node number)

namespace Workbench

/-- What is asked of a workbench. Objects are given by number. -/
inductive Action where
  | create (body : Body) (combinator : body.isCombinator = true)
  | node (addition : Design.Addition)
  | newArena
  | add (arena : Int) (entities : List Int)
  | addNodes (arena : Int) (nodes : List (Option Int))
  | connect (color : ColorCode) (ends : List (Option (Int × Side)))

/-- Do what is asked. -/
def Action.run : Action → Session Unit
  | create body _ => discard (Session.addEntity body)
  | node addition => Session.onDesign addition.run
  | newArena => discard Session.newArena
  | add arena entities => do
      let place ← Session.arena arena
      let ids ← entities.mapM Session.entity
      Session.onArena place (Arena.add ids)
  | addNodes arena nodes => do
      let place ← Session.arena arena
      let ids ← nodes.mapM Session.node?
      Session.addNodes place ids
  | connect color ends => do
      let points ← ends.mapM Session.point
      Session.connect color points

/-- The workbench that an action leaves, whether it succeeds or fails. -/
def perform (bench : Workbench) (action : Action) : Workbench :=
  match action.run bench with
  | .ok _ later => later
  | .error _ later => later

/-- The workbench that actions leave, starting from an empty one. -/
def ofActions (actions : List Action) : Workbench :=
  actions.foldl perform {}

variable {bench later : Workbench}

/-- Only ports of combinators are wired, the members of an arena have the numbers of their places,
and no entity is in two arenas. -/
structure Orderly (bench : Workbench) : Prop where
  tidy : bench.design.board.Tidy
  anchored : bench.design.board.Anchored
  combinators :
    ∀ id, id < bench.design.board.size →
      (bench.design.board.entity id).body.isCombinator = true
  bounded :
    ∀ id, id < bench.design.nodes.size →
      ∀ entity ∈ (bench.design.node id).kind.entities, entity < bench.design.board.size
  members :
    ∀ (place : Nat) (arena : Arena), bench.arenas[place]? = some arena →
      ∀ id ∈ arena.members, id < bench.design.board.size
  numbers :
    ∀ (place : Nat) (arena : Arena), bench.arenas[place]? = some arena →
      bench.design.board.Numbers arena.members
  apart :
    ∀ (place other : Nat) (first second : Arena) (id : Nat),
      bench.arenas[place]? = some first → bench.arenas[other]? = some second →
        id ∈ first.members → id ∈ second.members → place = other

/-- What a workbench has is kept: entities, numbers, and the members of arenas in their places. -/
structure Keeps (bench later : Workbench) : Prop where
  bodies : bench.design.board.Keeps later.design.board
  nodes : bench.design.nodes.size ≤ later.design.nodes.size
  number_eq :
    ∀ id, (bench.design.board.entity id).number ≠ 0 →
      (later.design.board.entity id).number = (bench.design.board.entity id).number
  arenas :
    ∀ (place : Nat) (arena : Arena), bench.arenas[place]? = some arena →
      ∃ more, later.arenas[place]? = some ⟨arena.members ++ more⟩

theorem Keeps.refl (bench : Workbench) : Keeps bench bench where
  bodies := Board.keeps_of_entities_eq rfl
  nodes := Nat.le_refl _
  number_eq _ _ := rfl
  arenas _ arena found := ⟨[], by rw [found, List.append_nil]⟩

theorem Keeps.trans
    {last : Workbench}
    (first : Keeps bench later)
    (second : Keeps later last) :
    Keeps bench last where
  bodies := first.bodies.trans second.bodies
  nodes := Nat.le_trans first.nodes second.nodes
  number_eq id numbered := by
    have same := first.number_eq id numbered
    rw [second.number_eq id (same ▸ numbered), same]
  arenas place arena found := by
    obtain ⟨more, foundLater⟩ := first.arenas place arena found
    obtain ⟨further, foundLast⟩ := second.arenas place _ foundLater
    exact ⟨more ++ further, by rw [foundLast, List.append_assoc]⟩

/-- A workbench goes on to another one that is orderly and has kept everything. -/
structure Proceeds (bench later : Workbench) : Prop where
  orderly : later.Orderly
  keeps : Keeps bench later

theorem Proceeds.trans
    {last : Workbench}
    (first : Proceeds bench later)
    (second : Proceeds later last) :
    Proceeds bench last :=
  ⟨second.orderly, first.keeps.trans second.keeps⟩

theorem Orderly.refl
    (orderly : bench.Orderly) :
    Proceeds bench bench :=
  ⟨orderly, .refl bench⟩

theorem orderly_empty : Orderly {} where
  tidy := (Board.spans_of_unwired rfl).tidy
  anchored _ _ joined := by
    rw [Board.joined_self_iff] at joined
    simp [Board.network?] at joined
  combinators _ inRange := absurd inRange (Nat.not_lt_zero _)
  bounded _ inRange := absurd inRange (Nat.not_lt_zero _)
  members _ _ found := by simp at found
  numbers _ _ found := by simp at found
  apart _ _ _ _ _ found := by simp at found

/-! ## Entities, nodes and wires -/

theorem lt_size_of_number
    {board : Board}
    {id : Nat}
    (numbered : (board.entity id).number ≠ 0) :
    id < board.size := by
  by_contra outside
  apply numbered
  have missing : board.entities[id]? = none := by simpa [Board.size] using outside
  simp [Board.entity, missing]
  rfl

/-- The design may grow: entities and nodes are added, and wires are laid between ports. -/
theorem Orderly.grow
    (orderly : bench.Orderly)
    {design : Design}
    (grows : Design.Grows bench.design design)
    (tidy : design.board.Tidy)
    (anchored : design.board.Anchored)
    (combinators :
      ∀ id, bench.design.board.size ≤ id → id < design.board.size →
        (design.board.entity id).body.isCombinator = true)
    (bounded :
      ∀ id, bench.design.nodes.size ≤ id → id < design.nodes.size →
        ∀ entity ∈ (design.node id).kind.entities, entity < design.board.size) :
    Proceeds bench { bench with design := design } where
  orderly :=
    { tidy := tidy
      anchored := anchored
      combinators := fun id inRange => by
        rcases Nat.lt_or_ge id bench.design.board.size with before | added
        · show (design.board.entity id).body.isCombinator = true
          rw [grows.entity_eq before]
          exact orderly.combinators id before
        · exact combinators id added inRange
      bounded := fun id inRange entity member => by
        rcases Nat.lt_or_ge id bench.design.nodes.size with before | added
        · rw [grows.kind_eq before] at member
          exact Nat.lt_of_lt_of_le (orderly.bounded id before entity member) grows.entities_le
        · exact bounded id added inRange entity member
      members := fun place arena found id member =>
        Nat.lt_of_lt_of_le (orderly.members place arena found id member) grows.entities_le
      numbers := fun place arena found index id atIndex => by
        have inRange := orderly.members place arena found id (List.mem_of_getElem? atIndex)
        show (design.board.entity id).number = index + 1
        rw [grows.entity_eq inRange]
        exact orderly.numbers place arena found index id atIndex
      apart := orderly.apart }
  keeps :=
    { bodies := ⟨grows.entities_le, fun inRange => by
        show (design.board.entity _).body = _
        rw [grows.entity_eq inRange]⟩
      nodes := grows.size_le
      number_eq := fun id numbered => by
        show (design.board.entity id).number = _
        rw [grows.entity_eq (lt_size_of_number numbered)]
      arenas := (Keeps.refl bench).arenas }

end Workbench

/-- The entities of a node are combinators. -/
theorem NodeKind.Stands.isCombinator
    {board : Board}
    {kind : NodeKind}
    (stands : kind.Stands board)
    {entity : Nat}
    (member : entity ∈ kind.entities) :
    (board.entity entity).body.isCombinator = true := by
  cases kind with
  | memory bank =>
      have twoPorts := stands.2 entity member
      cases body : (board.entity entity).body with
      | fixture name => simp [body, Body.outputPort] at twoPorts
      | _ => rfl
  | input bits constant =>
      obtain rfl := List.mem_singleton.mp member
      rw [stands]
      rfl
  | literal constant =>
      obtain rfl := List.mem_singleton.mp member
      obtain ⟨count, isConstant⟩ := stands
      rw [isConstant]
      rfl
  | output bits terminal =>
      obtain rfl := List.mem_singleton.mp member
      rw [stands]
      rfl
  | gate label a b first =>
      obtain ⟨isTransformer, ⟨comparator, isComparison⟩ | ⟨operator, isOperation⟩⟩ := stands <;>
        simp only [entities, List.mem_cons, List.not_mem_nil, or_false] at member <;>
        rcases member with rfl | rfl <;> simp only [*] <;> rfl
  | mux a b select first =>
      obtain ⟨isTransformer, isFirst, isSecond⟩ := stands
      simp only [entities, List.mem_cons, List.not_mem_nil, or_false] at member
      rcases member with rfl | rfl | rfl <;> simp only [*] <;> rfl
  | tap point => cases member
  | readPort memory index bits point => cases member

/-! ## What is looked up -/

namespace Session

variable {bench : Workbench}

/-- What holds of a piece after an operation on it holds of the workbench with the piece back. -/
theorem zoom_ensures
    {σ α : Type}
    {piece : Workbench → σ}
    {put : σ → Workbench → Workbench}
    {operation : EStateM Failure σ α}
    {succeeded : α → Workbench → Prop}
    {failed : Failure → Workbench → Prop}
    (ensured :
      Ensures (operation (piece bench))
        (fun value changed => succeeded value (put changed bench))
        (fun failure changed => failed failure (put changed bench))) :
    Ensures (zoom piece put operation bench) succeeded failed := by
  rw [zoom, bind_of_ok (get_run bench)]
  cases ran : operation (piece bench) <;> rw [ran] at ensured <;> rw [EStateM.run, ran] <;>
    exact ensured

theorem index_ensures
    (size : Nat)
    (number : Int) :
    Ensures (index size number bench)
      (fun place later => later = bench ∧ place < size) (fun _ later => later = bench) := by
  unfold index
  split
  next inRange => exact ⟨rfl, by omega⟩
  next => exact rfl

theorem arena_ensures (number : Int) :
    Ensures (Session.arena number bench)
      (fun place later => later = bench ∧ place < bench.arenas.size) (fun _ later => later = bench) :=
  index_ensures _ number

theorem entity_ensures (number : Int) :
    Ensures (Session.entity number bench)
      (fun id later => later = bench ∧ id < bench.design.board.size)
      (fun _ later => later = bench) :=
  index_ensures _ number

theorem node?_ensures (number : Option Int) :
    Ensures (Session.node? number bench)
      (fun node later => later = bench ∧ ∀ id ∈ node, id < bench.design.nodes.size)
      (fun _ later => later = bench) := by
  cases number with
  | none => exact ⟨rfl, by simp⟩
  | some number =>
      apply Ensures.bind
      refine (index_ensures bench.design.nodes.size number).mono ?_ fun _ _ same => same
      rintro id _ ⟨rfl, inRange⟩
      exact ⟨rfl, by simpa using inRange⟩

theorem point_ensures (number : Option (Int × Side)) :
    Ensures (Session.point number bench)
      (fun point later => later = bench ∧ ∀ isPoint ∈ point, bench.design.board.HasPort isPoint)
      (fun _ later => later = bench) := by
  rcases number with _ | ⟨number, side⟩
  · exact ⟨rfl, by simp⟩
  · apply Ensures.bind
    refine (entity_ensures number).mono ?_ fun _ _ same => same
    rintro id _ ⟨rfl, inRange⟩
    refine ⟨rfl, ?_⟩
    rintro _ ⟨⟩
    cases side
    · exact Board.hasPort_input inRange
    · exact Board.hasPort_output inRange

end Session

namespace Workbench

variable {bench later : Workbench}

/-- A new node stands on combinators, and the wires inside it join their ports. -/
theorem Orderly.push
    (orderly : bench.Orderly)
    {design : Design}
    (pushes : Design.Pushes bench.design design) :
    Proceeds bench { bench with design := design } := by
  have grows := pushes.grows
  have anchored := pushes.anchored orderly.tidy orderly.anchored
  cases pushes with
  | @push part kind entities wires stands ports =>
      have size_eq : (bench.design.push part kind).board.size =
          bench.design.board.size + part.bodies.length := by
        simp [Design.push, Board.size, Board.entities_install]
      have standing : ∀ entity, bench.design.board.size ≤ entity →
          entity < (bench.design.push part kind).board.size → entity ∈ kind.entities := by
        intro entity above below
        rw [entities, List.mem_map]
        exact ⟨entity - bench.design.board.size, List.mem_range.mpr (by omega), by omega⟩
      refine orderly.grow grows (orderly.tidy.install part) anchored ?_ ?_
      · intro entity above below
        exact stands.isCombinator (standing entity above below)
      · intro id above below entity member
        rw [Design.size_push] at below
        rw [Design.node_push, if_pos (by omega), entities] at member
        obtain ⟨place, inPart, rfl⟩ := List.mem_map.mp member
        exact size_eq ▸ Nat.add_lt_add_left (List.mem_range.mp inPart) _

theorem Orderly.addition
    (orderly : bench.Orderly)
    (addition : Design.Addition) :
    Proceeds bench { bench with design := Design.after addition.run bench.design } := by
  refine addition.preserves
    (motive := fun design => Proceeds bench { bench with design := design }) orderly.refl ?_
  intro design later proceeds pushes
  exact proceeds.trans (proceeds.orderly.push pushes)

theorem Orderly.create
    (orderly : bench.Orderly)
    {body : Body}
    (combinator : body.isCombinator = true) :
    Proceeds bench
      { bench with design := { bench.design with board := bench.design.board.add body } } := by
  have board_eq : bench.design.board.add body = bench.design.board.addAll [body] := rfl
  have size_eq : (bench.design.board.add body).size = bench.design.board.size + 1 := by
    simp [Board.add, Board.size]
  rw [board_eq] at size_eq ⊢
  refine orderly.grow ?_ ?_ (orderly.anchored.addAll [body]) ?_ ?_
  · exact ⟨Nat.le_refl _, fun _ => rfl, (Board.keeps_addAll _ _).size_le,
      Board.entity_addAll _ [body], fun found => found⟩
  · exact orderly.tidy.of_wires_eq (Board.toWires_addAll _ _)
  · intro id above below
    obtain rfl : id = bench.design.board.size := by
      simp only [size_eq] at below
      omega
    show ((bench.design.board.addAll [body]).entity bench.design.board.size).body.isCombinator = true
    simpa [Board.entity, Board.entities_addAll, Board.size, Entity.body_ofBody] using combinator
  · intro id above below
    exact absurd below (Nat.not_lt.mpr above)

theorem Orderly.lay
    (orderly : bench.Orderly)
    {wires : List (Color × List Endpoint)}
    (ports : ∀ wire ∈ wires, ∀ point ∈ wire.2, bench.design.board.HasPort point) :
    Proceeds bench
      { bench with design := { bench.design with board := bench.design.board.lay wires } } := by
  have same := bench.design.board.entities_lay wires
  refine orderly.grow ?_ (orderly.tidy.lay wires) (orderly.anchored.lay orderly.tidy ports) ?_ ?_
  · refine ⟨Nat.le_refl _, fun _ => rfl, (Board.keeps_of_entities_eq same).size_le, fun _ => ?_,
      fun found => found⟩
    simp [Board.entity, same]
  · intro id above below
    simp only [Board.size, same] at above below
    omega
  · intro id above below
    exact absurd below (Nat.not_lt.mpr above)

/-! ## Arenas -/

/-- A workbench with another board, and another arena in a place. -/
def withArena (bench : Workbench) (place : Nat) (pair : Board × Arena) : Workbench :=
  { bench with
    design := { bench.design with board := pair.1 }
    arenas := bench.arenas.setIfInBounds place pair.2 }

theorem getElem?_withArena
    {place : Nat}
    (inRange : place < bench.arenas.size)
    (pair : Board × Arena)
    (asked : Nat) :
    (bench.withArena place pair).arenas[asked]? =
      if asked = place then some pair.2 else bench.arenas[asked]? := by
  simp only [withArena, Array.getElem?_setIfInBounds]
  grind

theorem withArena_self
    {place : Nat}
    (inRange : place < bench.arenas.size) :
    bench.withArena place (bench.design.board, bench.arenas.getD place {}) = bench := by
  have same : bench.arenas.setIfInBounds place (bench.arenas.getD place {}) = bench.arenas := by
    apply Array.ext_getElem?
    intro asked
    rw [Array.getElem?_setIfInBounds]
    split
    next equal =>
      subst equal
      simp [inRange]
    next => rfl
  rw [withArena]
  simp only [same]

/-- An entity without a number is in no arena, because the members of arenas have numbers. -/
theorem Orderly.notMem_members
    (orderly : bench.Orderly)
    {id : Nat}
    (unnumbered : (bench.design.board.entity id).number = 0)
    {place : Nat}
    {arena : Arena}
    (found : bench.arenas[place]? = some arena) :
    id ∉ arena.members := by
  intro member
  obtain ⟨index, atIndex⟩ := List.getElem?_of_mem member
  have number := orderly.numbers place arena found index id atIndex
  rw [unnumbered] at number
  cases number

/-- A workbench on which an entity is a new member of an arena and has the next number. -/
def enlist (bench : Workbench) (place : Nat) (pair : Board × Arena) (id : Nat) : Workbench :=
  bench.withArena place
    (pair.1.modifyEntity id ({ · with number := pair.2.members.length + 1 }),
      ⟨pair.2.members ++ [id]⟩)

section Enlist

variable {place : Nat} {pair : Board × Arena} {id : Nat}

theorem alike_enlist : pair.1.Alike (bench.enlist place pair id).design.board :=
  pair.1.alike_modifyEntity id fun _ => rfl

/-- Only the new member gets another number. -/
theorem number_enlist
    {other : Nat}
    (different : other ≠ id) :
    ((bench.enlist place pair id).design.board.entity other).number =
      (pair.1.entity other).number := by
  show ((pair.1.modifyEntity id _).entity other).number = _
  rw [Board.entity_modifyEntity, if_neg fun both => different both.1]

/-- The arena in the place has the new member behind its other ones, and all others stay. -/
theorem getElem?_enlist
    (placed : place < bench.arenas.size)
    (asked : Nat) :
    (bench.enlist place pair id).arenas[asked]? =
      if asked = place then some ⟨pair.2.members ++ [id]⟩
      else (bench.withArena place pair).arenas[asked]? := by
  rw [enlist, getElem?_withArena placed, getElem?_withArena placed]
  split <;> rfl

/-- A member of an arena is the new one, or it was a member before. -/
theorem mem_members_enlist
    (placed : place < bench.arenas.size)
    {asked : Nat}
    {arena : Arena}
    (found : (bench.enlist place pair id).arenas[asked]? = some arena)
    {other : Nat}
    (member : other ∈ arena.members) :
    (asked = place ∧ other = id) ∨
      ∃ before, (bench.withArena place pair).arenas[asked]? = some before ∧
        other ∈ before.members := by
  rw [getElem?_enlist placed] at found
  split at found
  · rename_i isPlace
    cases found
    rcases List.mem_append.mp member with wasMember | isNew
    · exact .inr ⟨pair.2, by rw [getElem?_withArena placed, if_pos isPlace], wasMember⟩
    · exact .inl ⟨isPlace, List.mem_singleton.mp isNew⟩
  · exact .inr ⟨arena, found, member⟩

theorem keeps_enlist
    (placed : place < bench.arenas.size)
    (unnumbered : (pair.1.entity id).number = 0) :
    Keeps (bench.withArena place pair) (bench.enlist place pair id) where
  bodies := ⟨Nat.le_of_eq alike_enlist.size_eq.symm, fun _ => alike_enlist.body_eq _⟩
  nodes := Nat.le_refl _
  number_eq other hasNumber := number_enlist fun same => hasNumber (same ▸ unnumbered)
  arenas asked arena found := by
    rw [getElem?_enlist placed]
    split
    · rename_i isPlace
      rw [getElem?_withArena placed, if_pos isPlace] at found
      cases found
      exact ⟨[id], rfl⟩
    · exact ⟨[], by rw [found, List.append_nil]⟩

/-- The members of all arenas have the numbers of their places. -/
theorem Orderly.numbers_enlist
    (orderly : (bench.withArena place pair).Orderly)
    (placed : place < bench.arenas.size)
    (inRange : id < pair.1.size)
    (unnumbered : (pair.1.entity id).number = 0)
    {asked : Nat}
    {arena : Arena}
    (found : (bench.enlist place pair id).arenas[asked]? = some arena) :
    (bench.enlist place pair id).design.board.Numbers arena.members := by
  have here : (bench.withArena place pair).arenas[place]? = some pair.2 := by
    rw [getElem?_withArena placed, if_pos rfl]
  intro index other atIndex
  rw [getElem?_enlist placed] at found
  split at found
  · cases found
    have before : Arena.Numbered pair := fun index other atIndex _ =>
      orderly.numbers place pair.2 here index other atIndex
    have below : other < pair.1.size := by
      rcases List.mem_append.mp (List.mem_of_getElem? atIndex) with wasMember | isNew
      · exact orderly.members place pair.2 here other wasMember
      · exact List.mem_singleton.mp isNew ▸ inRange
    refine before.append unnumbered index other atIndex (Nat.lt_of_lt_of_le below ?_)
    exact (keeps_enlist placed unnumbered).bodies.size_le
  · have different : other ≠ id := by
      rintro rfl
      exact orderly.notMem_members unnumbered found (List.mem_of_getElem? atIndex)
    rw [number_enlist different]
    exact orderly.numbers asked arena found index other atIndex

/-- An entity that has no number gets the next one of an arena. -/
theorem Orderly.enlist
    (orderly : (bench.withArena place pair).Orderly)
    (placed : place < bench.arenas.size)
    (inRange : id < pair.1.size)
    (unnumbered : (pair.1.entity id).number = 0) :
    Proceeds (bench.withArena place pair) (bench.enlist place pair id) := by
  have alike : pair.1.Alike (bench.enlist place pair id).design.board := alike_enlist
  have keeps := keeps_enlist placed unnumbered
  refine ⟨⟨orderly.tidy.of_wires_eq rfl, ?_, ?_, ?_, ?_, ?_, ?_⟩, keeps⟩
  · exact fun color point joined => (orderly.anchored color point joined).keeps keeps.bodies
  · intro other below
    rw [alike.body_eq]
    exact orderly.combinators other (alike.size_eq ▸ below)
  · intro node below entity member
    exact alike.size_eq.symm ▸ orderly.bounded node below entity member
  · intro asked arena found other member
    rw [alike.size_eq]
    rcases mem_members_enlist placed found member with ⟨-, rfl⟩ | ⟨before, isBefore, wasMember⟩
    · exact inRange
    · exact orderly.members asked before isBefore other wasMember
  · exact fun asked arena found => orderly.numbers_enlist placed inRange unnumbered found
  · intro asked other first second entity isFirst isSecond inFirst inSecond
    -- The new member was in no arena, so two arenas that share an entity shared it before.
    rcases mem_members_enlist placed isFirst inFirst with
        ⟨rfl, rfl⟩ | ⟨before, isBefore, inBefore⟩ <;>
      rcases mem_members_enlist placed isSecond inSecond with
        ⟨rfl, same⟩ | ⟨otherBefore, isOther, inOther⟩
    · rfl
    · exact absurd inOther (orderly.notMem_members unnumbered isOther)
    · exact absurd (same ▸ inBefore) (orderly.notMem_members unnumbered isBefore)
    · exact orderly.apart asked other before otherBefore entity isBefore isOther inBefore inOther

end Enlist

/-- Entities are added to an arena up to the first one that has a number. -/
theorem Orderly.addEntities
    (orderly : bench.Orderly)
    {place : Nat}
    (placed : place < bench.arenas.size)
    {ids : List Nat}
    (inRange : ∀ id ∈ ids, id < bench.design.board.size) :
    Ensures (Session.onArena place (Arena.add ids) bench)
      (fun _ later => Proceeds bench later) (fun _ later => Proceeds bench later) := by
  apply Session.zoom_ensures
  refine Ensures.forM (fun pair => Proceeds bench (bench.withArena place pair)) ?_ ?_
  · rintro id member ⟨board, arena⟩ proceeds
    by_cases unnumbered : (board.entity id).number = 0
    · rw [Arena.addOne_run unnumbered]
      refine proceeds.trans (proceeds.orderly.enlist placed ?_ unnumbered)
      exact Nat.lt_of_lt_of_le (inRange id member) proceeds.keeps.bodies.size_le
    · rw [Arena.addOne_refused unnumbered]
      exact proceeds
  · show Proceeds bench (bench.withArena place (bench.design.board, bench.arenas.getD place {}))
    rw [withArena_self placed]
    exact orderly.refl

theorem Proceeds.lt_size_arenas
    (proceeds : Proceeds bench later)
    {place : Nat}
    (placed : place < bench.arenas.size) :
    place < later.arenas.size := by
  obtain ⟨more, found⟩ :=
    proceeds.keeps.arenas place bench.arenas[place] (Array.getElem?_eq_getElem placed)
  exact (Array.getElem?_eq_some_iff.mp found).1

theorem Orderly.addNodes
    (orderly : bench.Orderly)
    {place : Nat}
    (placed : place < bench.arenas.size)
    {nodes : List (Option Nat)}
    (inRange : ∀ node ∈ nodes, ∀ id ∈ node, id < bench.design.nodes.size) :
    Ensures (Session.addNodes place nodes bench)
      (fun _ later => Proceeds bench later) (fun _ later => Proceeds bench later) := by
  refine Ensures.forM (Proceeds bench) ?_ orderly.refl
  intro node member state proceeds
  cases node with
  | none => exact proceeds
  | some id =>
      have known := Nat.lt_of_lt_of_le (inRange _ member id rfl) proceeds.keeps.nodes
      have added := proceeds.orderly.addEntities (proceeds.lt_size_arenas placed)
        (proceeds.orderly.bounded id known)
      exact added.mono (fun _ _ => proceeds.trans) (fun _ _ => proceeds.trans)

theorem Orderly.newArena
    (orderly : bench.Orderly) :
    Proceeds bench { bench with arenas := bench.arenas.push {} } := by
  have found_of {place : Nat} {arena : Arena}
      (found : (bench.arenas.push {})[place]? = some arena) :
      bench.arenas[place]? = some arena ∨ arena = {} := by
    rw [Array.getElem?_push] at found
    split at found
    · exact .inr (Option.some.inj found).symm
    · exact .inl found
  refine ⟨⟨orderly.tidy, orderly.anchored, orderly.combinators, orderly.bounded, ?_, ?_, ?_⟩,
    ⟨Board.keeps_of_entities_eq rfl, Nat.le_refl _, fun _ _ => rfl, ?_⟩⟩
  · intro place arena found id member
    rcases found_of found with before | rfl
    · exact orderly.members place arena before id member
    · cases member
  · intro place arena found index id atIndex
    rcases found_of found with before | rfl
    · exact orderly.numbers place arena before index id atIndex
    · cases atIndex
  · intro place other first second id isFirst isSecond inFirst inSecond
    rcases found_of isFirst with beforeFirst | rfl
    · rcases found_of isSecond with beforeSecond | rfl
      · exact orderly.apart place other first second id beforeFirst beforeSecond inFirst inSecond
      · cases inSecond
    · cases inFirst
  · intro place arena found
    have placed := (Array.getElem?_eq_some_iff.mp found).1
    refine ⟨[], ?_⟩
    show (bench.arenas.push {})[place]? = _
    rw [Array.getElem?_push, if_neg (Nat.ne_of_lt placed), found, List.append_nil]

/-! ## Actions -/

theorem Orderly.connect
    (orderly : bench.Orderly)
    (color : ColorCode)
    {points : List (Option Endpoint)}
    (ports : ∀ point ∈ points, ∀ isPoint ∈ point, bench.design.board.HasPort isPoint) :
    Ensures (Session.connect color points bench)
      (fun _ later => Proceeds bench later) (fun _ later => Proceeds bench later) := by
  have read : Session.board bench = .ok bench.design.board bench := rfl
  rw [Session.connect, bind_of_ok read]
  rcases Connection.connect_eq bench.design.board ⟨color, points⟩ with
    ⟨-, connected⟩ | ⟨-, misuse, refused⟩
  · rw [connected]
    refine orderly.lay fun wire laid point member => ?_
    -- A wire that is laid runs through exactly the given endpoints.
    obtain ⟨-, present, -⟩ := Connection.mem_wires_iff.mp laid
    obtain rfl : points = wire.2.map some := present
    exact ports (some point) (List.mem_map_of_mem member) point rfl
  · rw [refused]
    exact orderly.refl

/-- Whatever is asked of an orderly workbench, it stays orderly and keeps what it has. -/
theorem Orderly.perform
    (orderly : bench.Orderly)
    (action : Action) :
    Proceeds bench (bench.perform action) := by
  suffices Ensures (action.run bench)
      (fun _ later => Proceeds bench later) (fun _ later => Proceeds bench later) by
    unfold Workbench.perform
    cases ran : action.run bench <;> rw [ran] at this <;> exact this
  cases action with
  | create body combinator => exact orderly.create combinator
  | node addition =>
      apply Session.zoom_ensures
      have proceeds := orderly.addition addition
      unfold Design.after at proceeds
      cases ran : addition.run bench.design <;> rw [ran] at proceeds <;> exact proceeds
  | newArena => exact orderly.newArena
  | add arena entities =>
      apply Ensures.bind
      refine (Session.arena_ensures arena).mono ?_ ?_
      · rintro place _ ⟨rfl, placed⟩
        apply Ensures.bind
        refine (Ensures.mapM_of_reads Session.entity_ensures entities).mono ?_ ?_
        · rintro ids _ ⟨rfl, inRange⟩
          exact orderly.addEntities placed inRange
        · rintro _ _ rfl
          exact orderly.refl
      · rintro _ _ rfl
        exact orderly.refl
  | addNodes arena nodes =>
      apply Ensures.bind
      refine (Session.arena_ensures arena).mono ?_ ?_
      · rintro place _ ⟨rfl, placed⟩
        apply Ensures.bind
        refine (Ensures.mapM_of_reads Session.node?_ensures nodes).mono ?_ ?_
        · rintro ids _ ⟨rfl, inRange⟩
          exact orderly.addNodes placed inRange
        · rintro _ _ rfl
          exact orderly.refl
      · rintro _ _ rfl
        exact orderly.refl
  | connect color ends =>
      apply Ensures.bind
      refine (Ensures.mapM_of_reads Session.point_ensures ends).mono ?_ ?_
      · rintro points _ ⟨rfl, ports⟩
        exact orderly.connect color ports
      · rintro _ _ rfl
        exact orderly.refl

/-- Along any run of actions the workbench is orderly and keeps what it has. -/
theorem Orderly.performAll
    (orderly : bench.Orderly)
    (actions : List Action) :
    Proceeds bench (actions.foldl Workbench.perform bench) := by
  induction actions generalizing bench with
  | nil =>
      exact orderly.refl
  | cons action rest inductionHypothesis =>
      have proceeds := orderly.perform action
      exact proceeds.trans (inductionHypothesis proceeds.orderly)

theorem orderly_ofActions (actions : List Action) : (ofActions actions).Orderly :=
  (orderly_empty.performAll actions).orderly

theorem keeps_ofActions_append
    (actions more : List Action) :
    Keeps (ofActions actions) (ofActions (actions ++ more)) := by
  rw [ofActions, ofActions, List.foldl_append]
  exact ((orderly_ofActions actions).performAll more).keeps

end Workbench

end CircuitNetwork
