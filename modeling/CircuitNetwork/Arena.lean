import CircuitNetwork.Record

namespace CircuitNetwork

/-!
# Arenas

An arena numbers the entities of a blueprint from one on, in the order in which
they are added, and places them on a grid. An entity belongs to one arena at
most and keeps its number.
-/

/-- The entities of a blueprint, in the order of their numbers. -/
structure Arena where
  members : List Nat := []
  deriving Repr, DecidableEq, Inhabited

namespace Arena

/-- Add an entity that has no number yet. -/
def addOne (id : Nat) : EStateM Failure (Board × Arena) Unit := do
  let (board, arena) ← get
  let entity := board.entity id
  if entity.number ≠ 0 then
    throw (.ofMisuse (.alreadyPlaced entity.label))
  let number := arena.members.length + 1
  set (board.modifyEntity id ({ · with number := number }), (⟨arena.members ++ [id]⟩ : Arena))

/-- Add entities in order. Those before one that is refused stay added. -/
def add (ids : List Nat) : EStateM Failure (Board × Arena) Unit :=
  ids.forM addOne

/-- The entity with a number. -/
def entity? (arena : Arena) (number : Int) : Option Nat :=
  if number < 1 then none else arena.members[number.toNat - 1]?

/-- The number of columns of a grid if none, or a senseless one, is asked for. -/
def defaultColumns : Nat := 16

/-- The place of the member with a given index. Entities with two ports are two tiles high. -/
def place (columns index : Nat) (body : Body) : Position :=
  { x := 2 * (index % columns) + 1
    y := 4 * (index / columns) + (if body.outputPort = .one then 1 else 2) }

/-- Place the entities of an arena row by row. -/
def layout (arena : Arena) (columns : Int) (board : Board) : Board :=
  let columns := if columns ≤ 0 then defaultColumns else columns.toNat
  arena.members.zipIdx.foldl
    (fun board (id, index) => board.modifyEntity id fun entity =>
      { entity with position := place columns index entity.body })
    board

/-- The records of all entities, or the failure of the first one that has none. -/
def records (arena : Arena) (board : Board) : Except Failure (List (Option Record)) :=
  arena.members.mapM board.record

end Arena

end CircuitNetwork
