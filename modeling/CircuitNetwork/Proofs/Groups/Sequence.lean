import CircuitNetwork.Proofs.Groups.Behavior

namespace CircuitNetwork

/-!
# Renaming one group after another

Any number of groups can be renamed one after another, each to a signal that is
not used at that time. A simulation then gives every combinator the counts that
it had before the renamings, with the signal of each renamed group replaced by
the new one.
-/

instance (board : Board) (entities : List Nat) (signal : Signal) :
    Decidable (board.Unused entities signal) :=
  inferInstanceAs (Decidable (∀ entity ∈ entities, _ ∧ _))

namespace SignalGroups

open Collection

/-- A request to rename a group of a signal. -/
structure Request where
  number : Int
  old : Signal
  new : Signal
  deriving Repr, DecidableEq

namespace Request

/-- Rename the group. -/
def perform (request : Request) : EStateM Failure (Board × SignalGroups) Unit :=
  rename request.number request.old request.new

/-- Whether an endpoint is in the group that is renamed. -/
def covers (groups : SignalGroups) (request : Request) (point : Endpoint) : Bool :=
  let collection := groups.collection request.old
  match collection.id? request.number with
  | some id => (collection.groupAt (collection.root id)).points.contains (some point)
  | none => false

/-- Whether there is a group to rename that was not renamed yet. -/
def isLive (groups : SignalGroups) (request : Request) : Bool :=
  (groups.find? request.old).any fun collection =>
    (collection.id? request.number).any fun id => !collection.isRenamed (collection.root id)

/-- There is a group to rename, and a signal that can take the place of the old one. -/
structure Allowed
    (entities : List Nat)
    (board : Board)
    (groups : SignalGroups)
    (request : Request) :
    Prop where
  isLive : request.isLive groups = true
  unused : board.Unused entities request.new
  notWildcard : request.new.isWildcard = false

theorem Allowed.exists_live
    {entities : List Nat}
    {board : Board}
    {groups : SignalGroups}
    {request : Request}
    (allowed : request.Allowed entities board groups) :
    ∃ collection id, groups.find? request.old = some collection ∧
      collection.id? request.number = some id ∧ collection.Live id := by
  obtain ⟨collection, found, live⟩ := Option.any_eq_true _ _ |>.mp allowed.isLive
  obtain ⟨id, isId, notRenamed⟩ := Option.any_eq_true _ _ |>.mp live
  exact ⟨collection, id, found, isId, by simpa [Live] using notRenamed⟩

instance
    (entities : List Nat)
    (board : Board)
    (groups : SignalGroups)
    (request : Request) :
    Decidable (request.Allowed entities board groups) :=
  decidable_of_iff
    (request.isLive groups = true ∧ board.Unused entities request.new ∧
      request.new.isWildcard = false)
    ⟨fun ⟨isLive, unused, notWildcard⟩ => ⟨isLive, unused, notWildcard⟩,
      fun allowed => ⟨allowed.isLive, allowed.unused, allowed.notWildcard⟩⟩

end Request

/-- Every request is allowed in the state that those before it lead to. -/
def AllAllowed (entities : List Nat) : List Request → Board × SignalGroups → Prop
  | [], _ => True
  | request :: rest, state =>
      request.Allowed entities state.1 state.2 ∧
        match request.perform state with
        | .ok _ next => AllAllowed entities rest next
        | .error _ _ => True

instance decidableAllAllowed (entities : List Nat) (requests : List Request)
    (state : Board × SignalGroups) :
    Decidable (AllAllowed entities requests state) :=
  match requests with
  | [] => isTrue trivial
  | request :: rest =>
      have : Decidable (match request.perform state with
          | .ok _ next => AllAllowed entities rest next
          | .error _ _ => True) :=
        match request.perform state with
        | .ok _ next => decidableAllAllowed entities rest next
        | .error _ _ => isTrue trivial
      inferInstanceAs (Decidable (_ ∧ _))

/-- The signal that stands for a signal at an endpoint after some renamings. -/
def newSignal
    (groups : SignalGroups)
    (requests : List Request)
    (point : Endpoint)
    (signal : Signal) :
    Signal :=
  match requests.find? fun request =>
      request.old = signal && request.covers groups point with
  | some request => request.new
  | none => signal

/-! ## One renaming -/

/-- All groups can be renamed. -/
structure Ready (entities : List Nat) (board : Board) (groups : SignalGroups) : Prop where
  tidy : board.Tidy
  consistent : ∀ signal, Consistent board entities signal (groups.collection signal)

/-- The same groups, of which some more were renamed. -/
structure Later (groups later : SignalGroups) : Prop where
  size_eq : ∀ signal, (later.collection signal).slots.size = (groups.collection signal).slots.size
  root_eq : ∀ signal id, (later.collection signal).root id = (groups.collection signal).root id
  groupAt_eq : ∀ signal id,
    (later.collection signal).groupAt id = (groups.collection signal).groupAt id
  live : ∀ signal id, (later.collection signal).Live id → (groups.collection signal).Live id

variable {entities : List Nat} {board : Board} {groups later : SignalGroups} {request : Request}

theorem Later.id?_eq
    (kept : Later groups later)
    (signal : Signal)
    (number : Int) :
    (later.collection signal).id? number = (groups.collection signal).id? number := by
  unfold Collection.id?
  rw [kept.size_eq]

/-- Request a group that was not renamed puts the new signal into its place. -/
theorem rename_eq
    {number : Int}
    {old : Signal}
    {collection : Collection}
    (found : groups.find? old = some collection)
    {id : Nat}
    (isId : collection.id? number = some id)
    (consistent : Consistent board entities old collection)
    (live : collection.Live id)
    (new : Signal) :
    ∃ other changed,
      rename number old new (board, groups) = .ok () (other, groups.insert old changed) ∧
        board.Relabeled other old new (collection.groupAt (collection.root id)).points ∧
        Marked collection changed (collection.root id) := by
  obtain ⟨other, changed, renamed, replaced, retired⟩ :=
    Collection.rename_eq consistent.rooted consistent.neat live (by
      intro point isPoint
      obtain ⟨member, isMember, -, speaks⟩ := (consistent.closed id live).speaks point isPoint
      exact ⟨member, isMember, speaks⟩) new
  exact ⟨other, changed, rename_of_ok found isId renamed, replaced.relabeled, retired.toMarked⟩

theorem Later.insert
    {old : Signal}
    {collection changed : Collection}
    (found : groups.find? old = some collection)
    {root : Nat}
    (marked : Marked collection changed root) :
    Later groups (groups.insert old changed) := by
  have isCollection := collection_of_find? found
  constructor
  · intro signal
    rw [collection_insert]
    split
    · rename_i isOld
      rw [isOld, isCollection, marked.size_eq]
    · rfl
  · intro signal id
    rw [collection_insert]
    split
    · rename_i isOld
      rw [isOld, isCollection, marked.root_eq]
    · rfl
  · intro signal id
    rw [collection_insert]
    split
    · rename_i isOld
      rw [isOld, isCollection, marked.groupAt_eq]
    · rfl
  · intro signal id live
    rw [collection_insert] at live
    split at live
    · rename_i isOld
      rw [isOld, isCollection]
      unfold Live at live ⊢
      rw [marked.root_eq, marked.isRenamed_eq] at live
      split at live
      · cases live
      · exact live
    · exact live

/-- What an allowed request does. -/
theorem perform_eq
    (ready : Ready entities board groups)
    (allowed : request.Allowed entities board groups) :
    ∃ other later points,
      request.perform (board, groups) = .ok () (other, later) ∧
        Circuit.Renames entities board other request.old request.new points ∧
        (∀ point, some point ∈ points ↔ request.covers groups point = true) ∧
        Ready entities other later ∧ Later groups later := by
  obtain ⟨collection, id, found, isId, live⟩ := allowed.exists_live
  have isCollection := collection_of_find? found
  have consistent := ready.consistent request.old
  rw [isCollection] at consistent
  obtain ⟨other, changed, renamed, relabeled, marked⟩ :=
    rename_eq found isId consistent live request.new
  refine ⟨other, _, _, renamed,
    ⟨ready.tidy, relabeled, consistent.closed id live, allowed.unused⟩, ?_,
    ⟨relabeled.tidy ready.tidy, ?_⟩, .insert found marked⟩
  · intro point
    simp only [Request.covers, isCollection, isId, List.contains_iff_mem]
  · intro signal
    rw [collection_insert]
    split
    · rename_i isOld
      rw [isOld]
      exact marked.consistent relabeled (consistent.rooted.root_root id) consistent
        allowed.unused
    · rename_i isOther
      have before := ready.consistent signal
      exact ⟨before.neat, before.rooted, before.single, fun id live =>
        relabeled.closed allowed.unused (before.closed id live) fun _ _ _ => isOther⟩

/-- All requests are for groups that were not renamed at first. -/
theorem AllAllowed.exists_live
    {requests : List Request}
    (ready : Ready entities board groups)
    (allowed : AllAllowed entities requests (board, groups)) :
    ∀ request ∈ requests, ∃ id,
      (groups.collection request.old).id? request.number = some id ∧
        (groups.collection request.old).Live id := by
  induction requests generalizing board groups with
  | nil =>
      simp
  | cons first rest inductionHypothesis =>
      obtain ⟨isAllowed, restAllowed⟩ := allowed
      obtain ⟨other, later, points, performs, -, -, readyLater, kept⟩ :=
        perform_eq ready isAllowed
      rw [List.forall_mem_cons]
      constructor
      · obtain ⟨collection, id, found, isId, live⟩ := isAllowed.exists_live
        rw [collection_of_find? found]
        exact ⟨id, isId, live⟩
      · intro request isRequest
        obtain ⟨id, isId, live⟩ :=
          inductionHypothesis readyLater (by rwa [performs] at restAllowed) request isRequest
        exact ⟨id, kept.id?_eq _ _ ▸ isId, kept.live _ _ live⟩

/-- What a list of requests does to a board. -/
structure Outcome
    (entities : List Nat)
    (requests : List Request)
    (board other : Board)
    (groups : SignalGroups) :
    Prop where
  outputs_eq : ∀ id, (other.entity id).body.outputs =
    (board.entity id).body.outputs.map (newSignal groups requests (board.output id))
  slot_eq : ∀ id, ∀ signal ∈ (board.entity id).body.outputs,
    Circuit.slot? (other.entity id).body (newSignal groups requests (board.output id) signal) =
      Circuit.slot? (board.entity id).body signal
  simulable : ∀ id ∈ entities, Circuit.Simulable (board.entity id).body →
    Circuit.Simulable (other.entity id).body
  initial : ∀ circuit : Circuit, circuit.Initial entities board → circuit.Initial entities other
  follows : ∀ circuit : Circuit, circuit.Initial entities board → ∀ count id,
    Frame.Follows (· ∈ (board.entity id).body.outputs)
      (newSignal groups requests (board.output id)) ((circuit.run board count).output id)
      ((circuit.run other count).output id)

end SignalGroups

/-! ## Simulations before and after -/

namespace Circuit

/-- Values for a signal of an entity. -/
structure Drive where
  entity : Nat
  signal : Signal
  source : Nat → Int32

/-- The signal is that of a slot of a constant. -/
def Drive.IsSlot (board : Board) (drive : Drive) : Prop :=
  ∃ isOn filters, (board.entity drive.entity).body = .constant isOn filters ∧
    drive.signal ∈ filters.map (·.signal)

/-- The driver that values for a signal give. -/
def Drive.driver (board : Board) (drive : Drive) : Driver :=
  { entity := drive.entity
    slot := slot? (board.entity drive.entity).body drive.signal
    signal := drive.signal
    source := drive.source }

/-- Drive several signals. -/
def driveEach (circuit : Circuit) (board : Board) (drives : List Drive) : Circuit :=
  drives.foldl (fun circuit drive =>
    circuit.drive board drive.entity drive.signal drive.source) circuit

theorem driveEach_eq
    (circuit : Circuit)
    (board : Board)
    (drives : List Drive) :
    circuit.driveEach board drives =
      { circuit with
        drivers := circuit.drivers ++ (drives.map (Drive.driver board)).toArray } := by
  induction drives generalizing circuit with
  | nil =>
      simp [driveEach]
  | cons drive rest inductionHypothesis =>
      rw [driveEach, List.foldl_cons, ← driveEach, inductionHypothesis]
      simp [Circuit.drive, Drive.driver]

theorem initial_driveEach
    (entities : List Nat)
    (workers : Int)
    {board : Board}
    {drives : List Drive}
    (slots : ∀ drive ∈ drives, drive.IsSlot board) :
    ((fresh entities workers).driveEach board drives).Initial entities board := by
  have sound := sound_fresh entities workers
  rw [driveEach_eq]
  refine ⟨⟨sound.sized, sound.proper⟩, rfl, output_fresh entities workers, ?_⟩
  intro driver isDriver isOn filters body
  simp only [fresh, Array.toList_append, List.nil_append, List.mem_map] at isDriver
  obtain ⟨drive, isDrive, rfl⟩ := isDriver
  obtain ⟨wasOn, slots, isConstant, isSlot⟩ := slots drive isDrive
  rw [Drive.driver, isConstant] at body
  cases body
  rw [Drive.driver, isConstant]
  exact exists_slot isSlot isOn

end Circuit

namespace SignalGroups

open Circuit

/-- Values for the signal that stands for another one after some renamings. -/
def follow
    (board : Board)
    (groups : SignalGroups)
    (requests : List Request)
    (drive : Drive) :
    Drive :=
  { drive with signal := newSignal groups requests (board.output drive.entity) drive.signal }

/-- A circuit that is built and driven after the renamings has drivers of the same slots. -/
theorem Outcome.twins
    {entities : List Nat}
    {requests : List Request}
    {board renamed : Board}
    {groups : SignalGroups}
    (outcome : Outcome entities requests board renamed groups)
    {workers : Int}
    {drives : List Drive}
    (slots : ∀ drive ∈ drives, drive.IsSlot board)
    (otherWorkers : Int) :
    Twins renamed ((fresh entities workers).driveEach board drives)
      ((fresh entities otherWorkers).driveEach renamed
        (drives.map (follow board groups requests))) := by
  have initial := initial_driveEach entities workers slots
  have sound := sound_fresh entities otherWorkers
  have alike : ∀ drive ∈ drives,
      (drive.driver board).Alike ((follow board groups requests drive).driver renamed) := by
    intro drive isDrive
    obtain ⟨isOn, filters, body, isSlot⟩ := slots drive isDrive
    refine ⟨rfl, outcome.slot_eq drive.entity drive.signal ?_, rfl, rfl⟩
    rw [body]
    exact isSlot
  refine ⟨(outcome.initial _ initial).regular, ?_, ?_, ?_, ?_⟩
  · rw [driveEach_eq]
    exact ⟨sound.sized, sound.proper⟩
  · rw [driveEach_eq, driveEach_eq]
    rfl
  · simp only [driveEach_eq, fresh, Array.toList_append, List.nil_append, List.map_map,
      List.forall₂_map_left_iff, List.forall₂_map_right_iff]
    exact List.forall₂_same.mpr alike
  · intro id
    rw [initial.silent, driveEach_eq]
    exact output_fresh entities otherWorkers id

end SignalGroups

end CircuitNetwork
