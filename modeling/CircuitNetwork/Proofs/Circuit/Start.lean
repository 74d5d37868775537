import CircuitNetwork.Proofs.Circuit.Step
import CircuitNetwork.Proofs.Computation

namespace CircuitNetwork.Circuit

/-!
# How simulations start

Which entities can be simulated, the state of a new circuit, and what drivers do
in a run.
-/

/-- An entity that can be simulated: a combinator without wildcards. -/
def Simulable (body : Body) : Prop :=
  body.isCombinator = true ∧ wildcard? body = none

instance (body : Body) : Decidable (Simulable body) :=
  inferInstanceAs (Decidable (_ ∧ _))

theorem checkMember_eq_ok_iff
    {board : Board}
    {earlier : List Nat}
    {id : Nat} :
    checkMember board earlier id = .ok () ↔
      id ∉ earlier ∧ Simulable (board.entity id).body := by
  unfold checkMember Simulable
  by_cases repeated : id ∈ earlier
  · simp [repeated]
  cases combinator : (board.entity id).body.isCombinator with
  | false => simp [repeated, combinator]
  | true => cases wild : wildcard? (board.entity id).body <;> simp [repeated, combinator, wild]

theorem checkMembers_eq_ok_iff
    (board : Board)
    (earlier ids : List Nat) :
    checkMembers board earlier ids = .ok () ↔
      ids.Nodup ∧ (∀ id ∈ ids, id ∉ earlier) ∧ ∀ id ∈ ids, Simulable (board.entity id).body := by
  induction ids generalizing earlier with
  | nil =>
      simp [checkMembers]
  | cons id rest inductionHypothesis =>
      have split : checkMembers board earlier (id :: rest) = .ok () ↔
          checkMember board earlier id = .ok () ∧
            checkMembers board (id :: earlier) rest = .ok () := by
        rw [checkMembers]
        cases checkMember board earlier id with
        | error failure => simp [bind, Except.bind]
        | ok _ => simp [bind, Except.bind]
      rw [split, checkMember_eq_ok_iff, inductionHypothesis]
      simp only [List.nodup_cons, List.mem_cons, forall_eq_or_imp, not_or]
      grind

/-- A circuit before its first step. -/
def fresh (ids : List Nat) (workers : Int) : Circuit :=
  { members := ids
    frames := (ids.map fun _ => SignalMap.empty).toArray
    workers := workers }

/-- A circuit can be built of some distinct entities that can be simulated. -/
theorem ofEntities_eq_ok_iff
    {board : Board}
    {workers : Int}
    {ids : List Nat}
    {circuit : Circuit} :
    ofEntities board workers ids = .ok circuit ↔
      ids ≠ [] ∧ ids.Nodup ∧ (∀ id ∈ ids, Simulable (board.entity id).body) ∧
        circuit = fresh ids workers := by
  have members := checkMembers_eq_ok_iff board [] ids
  simp only [List.not_mem_nil, not_false_eq_true, implies_true, true_and] at members
  cases ids with
  | nil =>
      simp [ofEntities, bind, Except.bind]
  | cons id rest =>
      have unfolded : ofEntities board workers (id :: rest) =
          (checkMembers board [] (id :: rest)).map fun _ => fresh (id :: rest) workers := by
        unfold ofEntities
        cases checkMembers board [] (id :: rest) <;> rfl
      rw [unfolded]
      cases checked : checkMembers board [] (id :: rest) with
      | error failure =>
          rw [checked] at members
          simp only [Except.map, reduceCtorEq, false_iff] at members ⊢
          rintro ⟨-, distinct, simulable, -⟩
          exact members ⟨distinct, simulable⟩
      | ok _ =>
          obtain ⟨distinct, simulable⟩ := members.mp checked
          simp only [Except.map, Except.ok.injEq, ne_eq, reduceCtorEq, not_false_eq_true, true_and]
          exact ⟨fun same => ⟨distinct, simulable, same.symm⟩, fun given => given.2.2.symm⟩

theorem sound_fresh
    (ids : List Nat)
    (workers : Int) :
    (fresh ids workers).Sound where
  sized := by simp [fresh]
  proper := by
    intro frame member
    simp only [fresh, List.mem_toArray, List.mem_map] at member
    obtain ⟨_, -, rfl⟩ := member
    exact Frame.proper_empty

/-- All outputs are empty at first. -/
theorem output_fresh
    (ids : List Nat)
    (workers : Int)
    (id : Nat) :
    (fresh ids workers).output id = SignalMap.empty := by
  unfold output
  cases (fresh ids workers).members.findIdx? (· = id) with
  | none => rfl
  | some index =>
      simp only [fresh, List.map_const', List.toArray_replicate, Array.getD_eq_getD_getElem?,
        Array.getElem?_replicate]
      split <;> rfl

/-! ## Drivers -/

/-- A driver after some steps: it was asked once in each of them, or never. -/
def later (circuit : Circuit) (board : Board) (count : Nat) (driver : Driver) : Driver :=
  if circuit.isAsked board driver then { driver with calls := driver.calls + count } else driver

/-- The drivers after a run. -/
theorem drivers_run
    (circuit : Circuit)
    (board : Board)
    (count : Nat) :
    (circuit.run board count).drivers = circuit.drivers.map (circuit.later board count) := by
  induction count with
  | zero =>
      have same : circuit.later board 0 = id := by
        funext driver
        simp [later]
      rw [same, Array.map_id, run_zero]
  | succ count inductionHypothesis =>
      have asked (driver : Driver) :
          (circuit.run board count).isAsked board (circuit.later board count driver) =
            circuit.isAsked board driver := by
        unfold isAsked later
        rw [members_run]
        split <;> rfl
      rw [run_succ, step]
      simp only [inductionHypothesis, Array.map_map]
      congr 1
      funext driver
      simp only [Function.comp_apply, asked]
      unfold later
      split
      · simp only [Nat.add_assoc]
      · rfl

/-- Drive a signal of several constants, each with values of its own. -/
def driveAll
    (circuit : Circuit)
    (board : Board)
    (entities : List Nat)
    (signal : Signal)
    (values : Nat → Nat → Int32) :
    Circuit :=
  entities.foldl (fun circuit entity => circuit.drive board entity signal (values entity)) circuit

/-- Driving constants only adds drivers. -/
theorem driveAll_eq
    (circuit : Circuit)
    (board : Board)
    (entities : List Nat)
    (signal : Signal)
    (values : Nat → Nat → Int32) :
    circuit.driveAll board entities signal values =
      { circuit with
        drivers := circuit.drivers ++ (entities.map fun entity =>
          { entity := entity
            slot := slot? (board.entity entity).body signal
            signal := signal
            source := values entity : Driver }).toArray } := by
  induction entities generalizing circuit with
  | nil =>
      simp [driveAll]
  | cons entity rest inductionHypothesis =>
      rw [driveAll, List.foldl_cons, ← driveAll, inductionHypothesis]
      simp [drive]

@[simp] theorem members_driveAll
    (circuit : Circuit)
    (board : Board)
    (entities : List Nat)
    (signal : Signal)
    (values : Nat → Nat → Int32) :
    (circuit.driveAll board entities signal values).members = circuit.members := by
  rw [driveAll_eq]

theorem output_driveAll
    (circuit : Circuit)
    (board : Board)
    (entities : List Nat)
    (signal : Signal)
    (values : Nat → Nat → Int32)
    (id : Nat) :
    (circuit.driveAll board entities signal values).output id = circuit.output id := by
  rw [driveAll_eq]
  rfl

theorem Sound.driveAll
    {circuit : Circuit}
    (sound : circuit.Sound)
    (board : Board)
    (entities : List Nat)
    (signal : Signal)
    (values : Nat → Nat → Int32) :
    (circuit.driveAll board entities signal values).Sound := by
  rw [driveAll_eq]
  exact ⟨sound.sized, sound.proper⟩

/-- The drivers of an entity during a run of a driven circuit. -/
theorem filter_drivers_run
    (circuit : Circuit)
    (undriven : circuit.drivers = #[])
    (board : Board)
    {entities : List Nat}
    (distinct : entities.Nodup)
    (signal : Signal)
    (values : Nat → Nat → Int32)
    (count id : Nat) :
    ((circuit.driveAll board entities signal values).run board count).drivers.toList.filter
        (·.entity = id) =
      if id ∈ entities then
        [(circuit.driveAll board entities signal values).later board count
          { entity := id
            slot := slot? (board.entity id).body signal
            signal := signal
            source := values id }]
      else [] := by
  have drivers : (circuit.driveAll board entities signal values).drivers =
      (entities.map fun entity =>
        { entity := entity
          slot := slot? (board.entity entity).body signal
          signal := signal
          source := values entity : Driver }).toArray := by
    rw [driveAll_eq, undriven]
    simp
  have entity_later (driver : Driver) :
      ((circuit.driveAll board entities signal values).later board count driver).entity =
        driver.entity := by
    unfold later
    split <;> rfl
  rw [drivers_run, drivers]
  simp only [List.map_toArray, List.map_map, List.filter_map]
  simp only [Function.comp_def, entity_later]
  rw [List.filter_eq, List.Nodup.count distinct]
  split <;> rfl

/-- A constant that is driven on the value signal puts the driven values out, and nothing else. -/
theorem count_driven
    {circuit : Circuit}
    (undriven : circuit.drivers = #[])
    {board : Board}
    {entities : List Nat}
    (distinct : entities.Nodup)
    {id : Nat}
    (member : id ∈ circuit.members)
    (driven : id ∈ entities)
    {initial : Int32}
    (body : (board.entity id).body = .ofCount initial)
    (values : Nat → Nat → Int32)
    (count : Nat)
    (signal : Signal) :
    Frame.count (((circuit.driveAll board entities .value values).run board count).nextOutput
        board id) signal =
      if signal = .value then values id count else 0 := by
  have slot : slot? (board.entity id).body .value = some 0 := by rw [body]; rfl
  have asked : (circuit.driveAll board entities .value values).isAsked board
      { entity := id, slot := some 0, signal := .value, source := values id } = true := by
    simp [isAsked, member, body, Body.ofCount, Body.ofFilters]
  have drivers := circuit.filter_drivers_run undriven board distinct .value values count id
  rw [if_pos driven, slot, later, if_pos asked] at drivers
  rw [nextOutput, body]
  simp only [Body.ofCount, Body.ofFilters, drivers, constantOutput, if_true, List.foldl_cons,
    List.foldl_nil, Driver.drive, Driver.target, Frame.count_assign]
  by_cases isValue : signal = .value
  · simp [isValue]
  · simp [isValue]

end CircuitNetwork.Circuit
