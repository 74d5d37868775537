import CircuitNetwork.Arena
import CircuitNetwork.Proofs.Computation

namespace CircuitNetwork

/-!
# Numbering and placing entities

Numbers and positions change neither the bodies of entities nor the networks
between them.
-/

/-- Two boards with the same networks between entities of the same bodies. -/
structure Board.Alike (board other : Board) : Prop where
  wires_eq : other.toWires = board.toWires
  size_eq : other.size = board.size
  body_eq : ∀ id, (other.entity id).body = (board.entity id).body

namespace Board.Alike

variable {board other : Board}

theorem refl (board : Board) : board.Alike board :=
  ⟨rfl, rfl, fun _ => rfl⟩

theorem trans
    {last : Board}
    (first : board.Alike other)
    (second : other.Alike last) :
    board.Alike last :=
  ⟨second.wires_eq.trans first.wires_eq, second.size_eq.trans first.size_eq,
    fun id => (second.body_eq id).trans (first.body_eq id)⟩

end Board.Alike

theorem Board.entity_modifyEntity
    (board : Board)
    (id : Nat)
    (change : Entity → Entity)
    (other : Nat) :
    (board.modifyEntity id change).entity other =
      if other = id ∧ id < board.size then change (board.entity id) else board.entity other := by
  simp only [entity, modifyEntity, Array.getD_eq_getD_getElem?, Array.getElem?_modify, size]
  by_cases same : id = other
  · subst same
    by_cases inRange : id < board.entities.size <;> simp [inRange]
  · simp [same, Ne.symm same]

/-- A change that keeps the body of an entity leaves a board alike. -/
theorem Board.alike_modifyEntity
    (board : Board)
    (id : Nat)
    {change : Entity → Entity}
    (keepsBody : ∀ entity, (change entity).body = entity.body) :
    board.Alike (board.modifyEntity id change) where
  wires_eq := rfl
  size_eq := by simp [size, modifyEntity]
  body_eq other := by
    rw [entity_modifyEntity]
    split
    · rename_i same
      rw [keepsBody, same.1]
    · rfl

namespace Arena

/-- A layout changes positions only. -/
theorem layout_alike
    (arena : Arena)
    (columns : Int)
    (board : Board) :
    board.Alike (arena.layout columns board) := by
  unfold layout
  generalize arena.members.zipIdx = members
  induction members generalizing board with
  | nil =>
      exact Board.Alike.refl board
  | cons member rest inductionHypothesis =>
      refine Board.Alike.trans ?_ (inductionHypothesis _)
      exact board.alike_modifyEntity member.1 fun _ => rfl

/-- An entity without a number gets the next one. -/
theorem addOne_run
    {id : Nat}
    {board : Board}
    (unnumbered : (board.entity id).number = 0)
    (arena : Arena) :
    addOne id (board, arena) =
      .ok () (board.modifyEntity id ({ · with number := arena.members.length + 1 }),
        ⟨arena.members ++ [id]⟩) := by
  have got : (get : EStateM Failure (Board × Arena) _) (board, arena) =
      .ok (board, arena) (board, arena) := rfl
  rw [addOne, bind_of_ok got]
  simp only [unnumbered]
  rfl

/-- Entities without numbers are added in order. -/
theorem add_run
    (ids : List Nat)
    (distinct : ids.Nodup)
    (board : Board)
    (arena : Arena)
    (unnumbered : ∀ id ∈ ids, (board.entity id).number = 0) :
    ∃ numbered,
      add ids (board, arena) = .ok () (numbered, ⟨arena.members ++ ids⟩) ∧
        board.Alike numbered ∧
        ∀ id, id ∉ ids → numbered.entity id = board.entity id := by
  induction ids generalizing board arena with
  | nil =>
      exact ⟨board, by simp [add], Board.Alike.refl board, fun _ _ => rfl⟩
  | cons id rest inductionHypothesis =>
      obtain ⟨notInRest, restDistinct⟩ := List.nodup_cons.mp distinct
      let first := board.modifyEntity id ({ · with number := arena.members.length + 1 })
      have keeps (other : Nat) (different : other ≠ id) :
          first.entity other = board.entity other := by
        rw [Board.entity_modifyEntity, if_neg (fun both => different both.1)]
      have added : addOne id (board, arena) = .ok () (first, ⟨arena.members ++ [id]⟩) :=
        addOne_run (unnumbered id (by simp)) arena
      obtain ⟨numbered, ran, alike, kept⟩ := inductionHypothesis restDistinct first
        ⟨arena.members ++ [id]⟩ (by
          intro other member
          rw [keeps other (fun same => notInRest (same ▸ member))]
          exact unnumbered other (by simp [member]))
      refine ⟨numbered, ?_, ?_, ?_⟩
      · refine (forM_cons_of_ok added rest).trans ?_
        simpa [add] using ran
      · refine Board.Alike.trans ?_ alike
        exact board.alike_modifyEntity id fun _ => rfl
      · intro other absent
        simp only [List.mem_cons, not_or] at absent
        rw [kept other absent.2, keeps other absent.1]

/-- An entity with a number is refused, and nothing is changed. -/
theorem addOne_refused
    {id : Nat}
    {board : Board}
    (hasNumber : (board.entity id).number ≠ 0)
    (arena : Arena) :
    addOne id (board, arena) =
      .error (.ofMisuse (.alreadyPlaced (board.entity id).label)) (board, arena) := by
  have got : (get : EStateM Failure (Board × Arena) _) (board, arena) =
      .ok (board, arena) (board, arena) := rfl
  rw [addOne, bind_of_ok got]
  simp only [hasNumber, not_false_eq_true, ne_eq, if_true]
  rfl

/-! ## Numbers -/

/-- The members that are on the board have the numbers of their places in the arena. -/
def Numbered (state : Board × Arena) : Prop :=
  ∀ index id, state.2.members[index]? = some id → id < state.1.size →
    (state.1.entity id).number = index + 1

/-- The new member has the number of its place. -/
theorem Numbered.append
    {board : Board}
    {arena : Arena}
    (numbered : Numbered (board, arena))
    {id : Nat}
    (unnumbered : (board.entity id).number = 0) :
    Numbered (board.modifyEntity id ({ · with number := arena.members.length + 1 }),
      ⟨arena.members ++ [id]⟩) := by
  intro index other atIndex inRange
  have alike : board.Alike
      (board.modifyEntity id ({ · with number := arena.members.length + 1 })) :=
    board.alike_modifyEntity id fun _ => rfl
  rw [alike.size_eq] at inRange
  rw [Board.entity_modifyEntity]
  rcases Nat.lt_trichotomy index arena.members.length with before | rfl | after
  · rw [List.getElem?_append_left before] at atIndex
    have number := numbered index other atIndex inRange
    -- An entity with a number is not the one that is added.
    rw [if_neg]
    · exact number
    · rintro ⟨rfl, -⟩
      simp only [unnumbered] at number
      cases number
  · simp only [List.getElem?_concat_length, Option.some.injEq] at atIndex
    subst atIndex
    rw [if_pos ⟨rfl, inRange⟩]
  · rw [List.getElem?_eq_none (by simp; omega)] at atIndex
    cases atIndex

/-- Adding entities gives them the numbers of their places, also if one of them is refused. -/
theorem Numbered.add
    {state : Board × Arena}
    (numbered : Numbered state)
    (ids : List Nat) :
    Ensures (Arena.add ids state)
      (fun _ later => Numbered later) (fun _ later => Numbered later) := by
  refine Ensures.forM Numbered ?_ numbered
  rintro id - ⟨board, arena⟩ numberedSoFar
  by_cases unnumbered : (board.entity id).number = 0
  · rw [addOne_run unnumbered]
    exact numberedSoFar.append unnumbered
  · rw [addOne_refused unnumbered]
    exact numberedSoFar

/-! ## Positions -/

/-- The number of columns that are used if some number is asked for. -/
def gridWidth (columns : Int) : Nat :=
  if columns ≤ 0 then defaultColumns else columns.toNat

/-- Place entities from a given index on. -/
def placeFrom (width start : Nat) (members : List Nat) (board : Board) : Board :=
  (members.zipIdx start).foldl
    (fun board (id, index) => board.modifyEntity id fun entity =>
      { entity with position := place width index entity.body })
    board

theorem entity_placeFrom_of_not_mem
    (width start : Nat)
    {members : List Nat}
    {id : Nat}
    (absent : id ∉ members)
    (board : Board) :
    (placeFrom width start members board).entity id = board.entity id := by
  induction members generalizing start board with
  | nil =>
      rfl
  | cons first rest inductionHypothesis =>
      simp only [List.mem_cons, not_or] at absent
      rw [placeFrom, List.zipIdx_cons, List.foldl_cons, ← placeFrom, inductionHypothesis _ absent.2,
        Board.entity_modifyEntity, if_neg fun both => absent.1 both.1]

/-- A member is placed by its index. -/
theorem entity_placeFrom
    (width start : Nat)
    {members : List Nat}
    (distinct : members.Nodup)
    {board : Board}
    {index id : Nat}
    (atIndex : members[index]? = some id)
    (inRange : id < board.size) :
    (placeFrom width start members board).entity id =
      { board.entity id with position := place width (start + index) (board.entity id).body } := by
  induction members generalizing start index board with
  | nil =>
      cases atIndex
  | cons first rest inductionHypothesis =>
      obtain ⟨notInRest, restDistinct⟩ := List.nodup_cons.mp distinct
      rw [placeFrom, List.zipIdx_cons, List.foldl_cons, ← placeFrom]
      cases index with
      | zero =>
          obtain rfl := Option.some.inj atIndex
          rw [entity_placeFrom_of_not_mem _ _ notInRest, Board.entity_modifyEntity,
            if_pos ⟨rfl, inRange⟩, Nat.add_zero]
      | succ index =>
          rw [List.getElem?_cons_succ] at atIndex
          have different : id ≠ first := fun same =>
            notInRest (same ▸ List.mem_of_getElem? atIndex)
          rw [inductionHypothesis (start + 1) restDistinct atIndex
              (by simpa [Board.size, Board.modifyEntity] using inRange),
            Board.entity_modifyEntity, if_neg fun both => different both.1]
          simp only [Nat.add_assoc, Nat.add_comm 1 index]

/-- A member of an arena is placed according to its index, and nothing else of it changes. -/
theorem entity_layout
    {arena : Arena}
    (distinct : arena.members.Nodup)
    (columns : Int)
    {board : Board}
    {index id : Nat}
    (atIndex : arena.members[index]? = some id)
    (inRange : id < board.size) :
    (arena.layout columns board).entity id =
      { board.entity id with
        position := place (gridWidth columns) index (board.entity id).body } := by
  have placed := entity_placeFrom (gridWidth columns) 0 distinct atIndex inRange
  rw [Nat.zero_add] at placed
  exact placed

end Arena

end CircuitNetwork
