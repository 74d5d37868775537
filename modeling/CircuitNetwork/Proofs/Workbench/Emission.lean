import CircuitNetwork.Proofs.Workbench.Numbering

namespace CircuitNetwork

/-!
# Records on a workbench

Whatever was done on a workbench before, the records of an arena are refused
because of its first loose member, or they describe the networks between its
members.
-/

/-- Every entity that shares a network with a member is a member. -/
def Arena.Closed (arena : Arena) (board : Board) : Prop :=
  ∀ color point other, point.entity ∈ arena.members → board.Joined color point other →
    other.entity ∈ arena.members

theorem Board.Numbers.nodup
    {board : Board}
    {members : List Nat}
    (numbers : board.Numbers members) :
    members.Nodup := by
  rw [List.nodup_iff_getElem?_ne_getElem?]
  intro first second before inRange same
  rw [List.getElem?_eq_getElem inRange] at same
  have firstNumber := numbers first _ same
  have secondNumber := numbers second _ (List.getElem?_eq_getElem inRange)
  omega

/-- The entity with a number of an arena is the member at its place. -/
theorem Arena.entity?_add_one
    (arena : Arena)
    (index : Nat) :
    arena.entity? (index + 1 : Nat) = arena.members[index]? := by
  simp [Arena.entity?]

/-- An arena is closed if no pointer to a network of a member belongs to an entity outside. -/
theorem Arena.closed_of_pointers
    {arena : Arena}
    {board : Board}
    (within :
      ∀ pointer ∈ board.pointers, ∀ other ∈ board.pointers,
        other.2 = pointer.2 → pointer.1.2.entity ∈ arena.members →
          other.1.2.entity ∈ arena.members) :
    arena.Closed board := by
  rintro color point other member ⟨network, isFirst, isSecond⟩
  have listed {point : Endpoint} (found : board.network? color point = some network) :
      ((color, point), network) ∈ board.pointers := by
    obtain ⟨before, behind, split, -⟩ := List.lookup_eq_some_iff.mp found
    simp [split]
  exact within _ (listed isFirst) _ (listed isSecond) rfl member

namespace Workbench

variable {bench : Workbench} {place : Nat} {arena : Arena}

theorem Orderly.encloses
    (orderly : bench.Orderly)
    (closed : arena.Closed bench.design.board) :
    bench.design.board.Encloses arena.members := by
  intro color point other member joined
  refine ⟨closed color point other member joined, ?_⟩
  exact (orderly.anchored color other (joined.symm.trans joined)).isPort

/-- The entity with a number has this number. -/
theorem Orderly.number_entity?
    (orderly : bench.Orderly)
    (found : bench.arenas[place]? = some arena)
    {number : Nat}
    (isFirst : 1 ≤ number)
    (isLast : number ≤ arena.members.length) :
    ∃ id, arena.entity? number = some id ∧ (bench.design.board.entity id).number = number := by
  obtain ⟨index, rfl⟩ : ∃ index, number = index + 1 := ⟨number - 1, by omega⟩
  have atIndex := List.getElem?_eq_getElem (l := arena.members) (i := index) (by omega)
  refine ⟨arena.members[index], ?_, orderly.numbers place arena found index _ atIndex⟩
  rw [Arena.entity?_add_one, atIndex]

/-- In each arena the entity with a number has this number. No entity is in two arenas or twice in
one, and numbers never change. The records of an arena that contains all entities attached to the
networks of its members are refused exactly if a member is loose, and then the first loose member is
named. Otherwise they describe the networks. -/
theorem records_ofActions_faithful (actions : List Action) :
    let bench := ofActions actions
    let board := bench.design.board
    (∀ (place : Nat) (arena : Arena), bench.arenas[place]? = some arena →
      (∀ number : Nat, 1 ≤ number → number ≤ arena.members.length →
        ∃ id, arena.entity? number = some id ∧ (board.entity id).number = number) ∧
      arena.members.Nodup ∧
      (∀ (other : Nat) (second : Arena), bench.arenas[other]? = some second → other ≠ place →
        ∀ id ∈ arena.members, id ∉ second.members) ∧
      (arena.Closed board →
        ((∃ id ∈ arena.members, board.Loose id) ∧
          ∃ (number id : Nat) (complaint : String),
            arena.entity? number = some id ∧ board.Loose id ∧
            (∀ (earlier other : Nat), earlier < number → arena.entity? earlier = some other →
              ¬board.Loose other) ∧
            arena.records board =
              .error (.ofFault ⟨.unconnected,
                (board.entity id).body.name ++ " #" ++ toString number, complaint⟩)) ∨
        ((∀ id ∈ arena.members, ¬board.Loose id) ∧
          ∃ listed : List Record,
            arena.records board = .ok (listed.map some) ∧
            board.Describes arena.members listed))) ∧
    ∀ (more : List Action) (id : Nat), (board.entity id).number ≠ 0 →
      ((ofActions (actions ++ more)).design.board.entity id).number = (board.entity id).number := by
  intro bench board
  have orderly : bench.Orderly := orderly_ofActions actions
  refine ⟨fun place arena found => ⟨?_, ?_, ?_, fun closed => ?_⟩, fun more id numbered => ?_⟩
  · exact fun number isFirst isLast => orderly.number_entity? found isFirst isLast
  · exact (orderly.numbers place arena found).nodup
  · intro other second isSecond different id inFirst inSecond
    exact different (orderly.apart other place second arena id isSecond found inSecond inFirst)
  · have numbers := orderly.numbers place arena found
    rcases arena.records_cases
        (fun id member => orderly.combinators id (orderly.members place arena found id member)) with
      ⟨before, id, after, complaint, split, wiredBefore, loose, refused⟩ | ⟨wired, listed⟩
    · have atPlace : arena.members[before.length]? = some id := by simp [split]
      refine .inl ⟨⟨id, List.mem_of_getElem? atPlace, loose⟩,
        before.length + 1, id, complaint, ?_, loose, ?_, ?_⟩
      · exact (arena.entity?_add_one before.length).trans atPlace
      · intro earlier other isEarlier isOther
        cases earlier with
        | zero => simp [Arena.entity?] at isOther
        | succ index =>
            rw [Arena.entity?_add_one, split, List.getElem?_append_left (by omega)] at isOther
            exact wiredBefore other (List.mem_of_getElem? isOther)
      · rw [refused, Entity.label, numbers before.length id atPlace]
    · refine .inr ⟨wired, arena.members.map board.sheet, ?_, ?_⟩
      · rw [listed, List.map_map]
        rfl
      · exact Board.describes_sheets orderly.tidy numbers (orderly.encloses closed)
  · exact (keeps_ofActions_append actions more).number_eq id numbered

/-- A constant and a combinator that are wired in both colors, and a loose constant in the second of
two arenas. -/
def wiredPair : List Action := [
  .create (.constant true []) rfl,
  .create transformer rfl,
  .create (.constant true []) rfl,
  .newArena,
  .newArena,
  .add 1 [2],
  .connect .red [some (0, .output), some (1, .input)],
  .connect .green [some (1, .output), some (0, .output)]]

/-- Adding them to the first arena, with the constant of the other one in between. -/
def addAcross : Action := .add 0 [0, 2, 1]

/-- Adding entities to an arena fails in the middle and is taken up again behind the entity that is
refused. The arena is closed then, and its records describe its networks. The records of the other
arena are refused. -/
theorem records_ofActions_faithful_addAcross :
    let bench := ofActions (wiredPair ++ [addAcross, .add 0 [1]])
    let board := bench.design.board
    Ensures (addAcross.run (ofActions wiredPair)) (fun _ _ => False) (fun failure later =>
        failure = .ofMisuse (.alreadyPlaced "constant-combinator #1") ∧
          later.arenas = #[⟨[0]⟩, ⟨[2]⟩]) ∧
      bench.arenas = #[⟨[0, 1]⟩, ⟨[2]⟩] ∧
      (∃ listed : List Record,
        (⟨[0, 1]⟩ : Arena).records board = .ok (listed.map some) ∧
        board.Describes [0, 1] listed) ∧
      ∃ complaint : String,
        (⟨[2]⟩ : Arena).records board =
          .error (.ofFault ⟨.unconnected, "constant-combinator #1", complaint⟩) := by
  intro bench board
  obtain ⟨faithful, -⟩ := records_ofActions_faithful (wiredPair ++ [addAcross, .add 0 [1]])
  refine ⟨by decide +kernel, by decide +kernel, ?_, ?_⟩
  · have isOk : ((⟨[0, 1]⟩ : Arena).records board).isOk = true := by decide +kernel
    have closed : (⟨[0, 1]⟩ : Arena).Closed board := Arena.closed_of_pointers (by decide +kernel)
    obtain ⟨-, -, -, records⟩ := faithful 0 ⟨[0, 1]⟩ (by decide +kernel)
    obtain ⟨-, number, id, complaint, -, -, -, refused⟩ | ⟨-, described⟩ := records closed
    · rw [refused] at isOk
      cases isOk
    · exact described
  · have isError : ((⟨[2]⟩ : Arena).records board).isOk = false := by decide +kernel
    have closed : (⟨[2]⟩ : Arena).Closed board := Arena.closed_of_pointers (by decide +kernel)
    obtain ⟨-, -, -, records⟩ := faithful 1 ⟨[2]⟩ (by decide +kernel)
    obtain ⟨-, number, id, complaint, isPlace, -, -, refused⟩ | ⟨-, listed, given, -⟩ :=
      records closed
    · refine ⟨complaint, refused.trans ?_⟩
      cases number with
      | zero =>
          simp [Arena.entity?] at isPlace
      | succ index =>
          rw [Arena.entity?_add_one] at isPlace
          obtain ⟨rfl, rfl⟩ : index = 0 ∧ 2 = id := by
            simpa [List.getElem?_singleton] using isPlace
          rfl
    · rw [given] at isError
      cases isError

end Workbench

end CircuitNetwork
