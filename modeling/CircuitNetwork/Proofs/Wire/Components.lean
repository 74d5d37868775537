import CircuitNetwork.Proofs.Signal.Map
import CircuitNetwork.Proofs.Wire.Networks

namespace CircuitNetwork

/-!
# Connections as connected components

Connections are asked for one after another, and some of them are refused. After
any number of them the networks of a color are the classes into which the
connections of this color put the endpoints. A network lists the endpoints that
point to it and carries what they carry, and one that was absorbed is left without
endpoints.
-/

/-! ## Sets of signals -/

theorem SignalSet.contains_addAll
    (signals : List Signal)
    (set : SignalSet)
    (asked : Signal) :
    (set.addAll signals).contains asked = true ↔ set.contains asked = true ∨ asked ∈ signals := by
  induction signals generalizing set with
  | nil =>
      simp [addAll]
  | cons signal rest inductionHypothesis =>
      have added : (set.add signal).contains asked = true ↔
          asked = signal ∨ set.contains asked = true := by
        simp only [add, SignalMap.contains, SignalMap.find?_insert]
        split <;> simp [*]
      rw [addAll, List.foldl_cons, ← addAll, inductionHypothesis, added, List.mem_cons]
      grind

theorem SignalSet.contains_union
    (set other : SignalSet)
    (asked : Signal) :
    (set.union other).contains asked = true ↔
      set.contains asked = true ∨ other.contains asked = true := by
  rw [union, contains_addAll, SignalMap.mem_keys_iff]

namespace Board

/-! ## What networks carry -/

/-- A network carries what its endpoints carry. -/
def Carries (board : Board) (network : Nat) : Prop :=
  ∀ found, board.networks[network]? = some found → ∀ signal,
    found.signals.contains signal = true ↔
      ∃ point ∈ found.points, (board.signals point).contains signal = true

/-- Every network that lists an endpoint carries what its endpoints carry. -/
def Loaded (board : Board) : Prop :=
  ∀ color network point, board.Lists color network point → board.Carries network

/-- What a network carries depends on the network and on the entities. -/
theorem Carries.congr
    {board other : Board}
    {network : Nat}
    (carries : board.Carries network)
    (sameEntities : other.entities = board.entities)
    (sameNetwork : other.networks[network]? = board.networks[network]?) :
    other.Carries network := by
  intro found isFound signal
  have sameSignals (point : Endpoint) : other.signals point = board.signals point := by
    simp only [signals, entity, sameEntities]
  simp only [sameSignals]
  exact carries found (sameNetwork ▸ isFound) signal

/-- The entities know the same signals after an endpoint was attached. -/
theorem signals_of_entities_eq
    {board other : Board}
    (sameEntities : other.entities = board.entities)
    (point : Endpoint) :
    other.signals point = board.signals point := by
  simp only [signals, entity, sameEntities]

theorem Carries.attach
    {board : Board}
    {network asked : Nat}
    (carries : board.Carries asked)
    (point : Endpoint) :
    (board.attach network point).Carries asked := by
  by_cases same : asked = network
  · subst same
    have sameSignals := signals_of_entities_eq (entities_attach board asked point)
    intro found isFound signal
    simp only [sameSignals]
    rw [Board.attach] at isFound
    split at isFound
    · rename_i missing
      rw [missing] at isFound
      cases isFound
    · rw [getElem?_modifyNetwork, if_pos rfl] at isFound
      obtain ⟨before, isBefore, rfl⟩ := Option.map_eq_some_iff.mp isFound
      simp only [SignalSet.contains_union, carries before isBefore, List.mem_append,
        List.mem_singleton, or_and_right, exists_or, exists_eq_left]
  · exact carries.congr (entities_attach ..) (getElem?_foldl_attach_of_ne [point] board same)

/-- Absorbing a network into another one leaves all others as they are. -/
theorem getElem?_absorb_of_ne
    (board : Board)
    {network absorbed asked : Nat}
    (notNetwork : asked ≠ network)
    (notAbsorbed : asked ≠ absorbed) :
    (board.absorb network absorbed).networks[asked]? = board.networks[asked]? := by
  unfold absorb
  split
  · rfl
  · rw [getElem?_modifyNetwork, if_neg notAbsorbed, getElem?_modifyNetwork, if_neg notNetwork,
      getElem?_foldl_attach_of_ne _ _ notNetwork]

/-- The network that takes another one in carries what the endpoints of both carry. -/
theorem Carries.absorb
    {board : Board}
    {network absorbed : Nat}
    (different : network ≠ absorbed)
    (carries : board.Carries network)
    (absorbedCarries : board.Carries absorbed) :
    (board.absorb network absorbed).Carries network := by
  unfold Board.absorb
  split
  · exact carries
  · rename_i old isOld
    let moved := old.points.foldl (·.attach network ·) board
    have movedCarries : moved.Carries network :=
      List.foldlRecOn (motive := fun (wired : Board) => wired.Carries network) old.points _ carries
        fun _ before point _ => before.attach point
    have sameSignals (point : Endpoint) : moved.signals point = board.signals point :=
      signals_of_entities_eq (entities_foldl_attach ..) point
    intro found isFound signal
    rw [getElem?_modifyNetwork, if_neg different, getElem?_modifyNetwork, if_pos rfl] at isFound
    obtain ⟨before, isBefore, rfl⟩ := Option.map_eq_some_iff.mp isFound
    -- The endpoints of the absorbed network are there, so its signals add nothing.
    have arrived : ∀ point ∈ old.points, point ∈ before.points := by
      have rosterEq : moved.roster network = some (before.color, before.points) := by
        simp [roster, moved, isBefore]
      rw [roster_foldl_attach, if_pos rfl] at rosterEq
      obtain ⟨⟨color, points⟩, -, shape⟩ := Option.map_eq_some_iff.mp rosterEq
      simp only [Prod.mk.injEq] at shape
      intro point member
      rw [← shape.2]
      exact List.mem_append_right _ member
    have mine := movedCarries before isBefore signal
    have theirs := absorbedCarries old isOld signal
    simp only [sameSignals] at mine
    change (before.signals.union old.signals).contains signal = true ↔
      ∃ point ∈ before.points, (moved.signals point).contains signal = true
    simp only [sameSignals, SignalSet.contains_union, mine, theirs]
    constructor
    · rintro (⟨point, member, carried⟩ | ⟨point, member, carried⟩)
      · exact ⟨point, member, carried⟩
      · exact ⟨point, arrived point member, carried⟩
    · exact .inl

/-- Endpoints join a network that carries what its endpoints carry. -/
theorem Loaded.join
    {board : Board}
    (loaded : board.Loaded)
    (tidy : board.Tidy)
    {color : Color}
    {network : Nat}
    (present : board.HasNetwork color network)
    (carries : board.Carries network)
    (point : Endpoint) :
    (board.join color network point).Loaded ∧ (board.join color network point).Carries network := by
  unfold Board.join
  split
  · rename_i current currentFound
    split
    · exact ⟨loaded, carries⟩
    · rename_i different
      have currentListed := tidy.lists_of_network? currentFound
      have joined := carries.absorb (Ne.symm different) (loaded _ _ _ currentListed)
      refine ⟨?_, joined⟩
      intro asked other listed isListed
      by_cases same : other = network
      · exact same ▸ joined
      · obtain ⟨moved, isMoved, -⟩ := currentListed
        rw [lists_absorb (Ne.symm different) present ⟨moved, isMoved⟩] at isListed
        rcases isListed with ⟨before, notCurrent⟩ | ⟨-, atNetwork, -⟩
        · exact (loaded _ _ _ before).congr (entities_absorb ..)
            (getElem?_absorb_of_ne board same notCurrent)
        · exact absurd atNetwork same
  · refine ⟨?_, carries.attach point⟩
    intro asked other listed isListed
    rw [lists_attach present] at isListed
    rcases isListed with before | ⟨-, rfl, -⟩
    · exact (loaded _ _ _ before).attach point
    · exact carries.attach point

theorem Loaded.foldl_join
    {board : Board}
    (loaded : board.Loaded)
    (tidy : board.Tidy)
    {color : Color}
    {network : Nat}
    (present : board.HasNetwork color network)
    (carries : board.Carries network)
    (points : List Endpoint) :
    (points.foldl (·.join color network ·) board).Loaded := by
  induction points generalizing board with
  | nil =>
      exact loaded
  | cons point rest inductionHypothesis =>
      obtain ⟨joined, joinedCarries⟩ := loaded.join tidy present carries point
      exact inductionHypothesis joined (tidy.join present point) (present.join point) joinedCarries

theorem Loaded.push
    {board : Board}
    (loaded : board.Loaded)
    (color : Color) :
    Loaded { board with networks := board.networks.push { color := color } } := by
  intro asked network point isListed
  rw [lists_push] at isListed
  refine (loaded _ _ _ isListed).congr rfl ?_
  obtain ⟨points, found, -⟩ := isListed
  have notNew : network ≠ board.networks.size := by
    rintro rfl
    simp [roster] at found
  rw [Array.getElem?_push, if_neg notNew]

/-- Laying wires keeps what networks carry right. -/
theorem Loaded.wire
    {board : Board}
    (loaded : board.Loaded)
    (tidy : board.Tidy)
    (color : Color)
    (points : List Endpoint) :
    (board.wire color points).Loaded := by
  unfold Board.wire
  split
  · rename_i network found
    obtain ⟨point, -, pointFound⟩ := List.exists_of_findSome?_eq_some found
    have listed := tidy.lists_of_network? pointFound
    exact loaded.foldl_join tidy (.of_lists listed) (loaded _ _ _ listed) points
  · refine (loaded.push color).foldl_join (tidy.push color) (hasNetwork_push board color) ?_ points
    intro found isFound signal
    rw [Array.getElem?_push, if_pos rfl, Option.some.injEq] at isFound
    subst isFound
    simp [SignalMap.contains]

/-! ## Networks that were absorbed -/

/-- No endpoint is on a network. -/
def Vacant (board : Board) (network : Nat) : Prop :=
  ∀ color point, board.network? color point ≠ some network

theorem Tidy.points_of_vacant
    {board : Board}
    (tidy : board.Tidy)
    {network : Nat}
    (vacant : board.Vacant network) :
    board.points network = [] := by
  unfold Board.points
  cases found : board.networks[network]? with
  | none =>
      rfl
  | some stored =>
      refine List.eq_nil_iff_forall_not_mem.mpr ?_
      intro point member
      exact vacant stored.color point
        (tidy.network?_eq_some_iff.mpr ⟨stored.points, by simp [roster, found], member⟩)

/-- When wires take an endpoint off a network, they take all of its endpoints. -/
theorem Tidy.vacant_wire
    {board : Board}
    (tidy : board.Tidy)
    {asked : Color}
    {point : Endpoint}
    {network : Nat}
    (found : board.network? asked point = some network)
    {color : Color}
    {points : List Endpoint}
    (moved : (board.wire color points).network? asked point ≠ some network) :
    (board.wire color points).Vacant network := by
  obtain ⟨target, -, after⟩ := tidy.exists_network?_wire color points
  rw [after] at moved
  split at moved
  · rename_i touched
    obtain ⟨rfl, touched⟩ := touched
    intro otherColor other otherFound
    rw [after] at otherFound
    split at otherFound
    · exact moved otherFound
    · rename_i untouched
      -- A network has one color, so the other endpoint moved together with this one.
      obtain ⟨listed, isListed, -⟩ := tidy.lists_of_network? found
      obtain ⟨otherListed, isOtherListed, -⟩ := tidy.lists_of_network? otherFound
      obtain ⟨rfl, -⟩ := Prod.mk.inj (Option.some.inj (isListed.symm.trans isOtherListed))
      exact untouched ⟨rfl, Touches.of_joined otherFound found touched⟩
  · exact absurd found moved

theorem HasNetwork.wire
    {board : Board}
    {asked : Color}
    {network : Nat}
    (present : board.HasNetwork asked network)
    (color : Color)
    (points : List Endpoint) :
    (board.wire color points).HasNetwork asked network := by
  unfold Board.wire
  split
  · exact present.foldl_join points
  · refine HasNetwork.foldl_join ?_ points
    obtain ⟨listed, found⟩ := present
    refine ⟨listed, ?_⟩
    have notNew : network ≠ board.networks.size := by
      rintro rfl
      simp [roster] at found
    rwa [roster, Array.getElem?_push, if_neg notNew]

/-- A network without endpoints gets none. -/
theorem Vacant.wire
    {board : Board}
    {network : Nat}
    (vacant : board.Vacant network)
    (tidy : board.Tidy)
    {asked : Color}
    (present : board.HasNetwork asked network)
    (color : Color)
    (points : List Endpoint) :
    (board.wire color points).Vacant network := by
  obtain ⟨target, origin, after⟩ := tidy.exists_network?_wire color points
  have notTarget : target ≠ network := by
    rintro rfl
    rcases origin with ⟨point, -, found⟩ | rfl
    · exact vacant color point found
    · obtain ⟨listed, found⟩ := present
      simp [roster] at found
  intro other point found
  rw [after] at found
  split at found
  · exact notTarget (Option.some.inj found)
  · exact vacant other point found

/-- Lay wires one after another. -/
def lay (board : Board) (wires : List (Color × List Endpoint)) : Board :=
  wires.foldl (fun wired wire => wired.wire wire.1 wire.2) board

theorem Loaded.lay
    {board : Board}
    (loaded : board.Loaded)
    (tidy : board.Tidy)
    (wires : List (Color × List Endpoint)) :
    (board.lay wires).Loaded := by
  have invariant := List.foldlRecOn (motive := fun (wired : Board) => wired.Tidy ∧ wired.Loaded)
    wires (fun wired wire => wired.wire wire.1 wire.2) ⟨tidy, loaded⟩
    fun _ before wire _ => ⟨before.1.wire wire.1 wire.2, before.2.wire before.1 wire.1 wire.2⟩
  exact invariant.2

/-- A network keeps an endpoint, or it loses all of its endpoints for good. -/
theorem Tidy.network?_lay
    {board : Board}
    (tidy : board.Tidy)
    {color : Color}
    {point : Endpoint}
    {network : Nat}
    (found : board.network? color point = some network)
    (wires : List (Color × List Endpoint)) :
    (board.lay wires).network? color point = some network ∨ (board.lay wires).Vacant network := by
  have invariant := List.foldlRecOn (motive := fun (wired : Board) =>
    wired.Tidy ∧ wired.HasNetwork color network ∧
      (wired.network? color point = some network ∨ wired.Vacant network))
    wires (fun wired wire => wired.wire wire.1 wire.2)
    ⟨tidy, .of_lists (tidy.lists_of_network? found), .inl found⟩ (by
      rintro wired ⟨tidyBefore, present, either⟩ wire -
      refine ⟨tidyBefore.wire _ _, present.wire _ _, ?_⟩
      rcases either with stays | vacant
      · by_cases moved : (wired.wire wire.1 wire.2).network? color point = some network
        · exact .inl moved
        · exact .inr (tidyBefore.vacant_wire stays moved)
      · exact .inr (vacant.wire tidyBefore present _ _))
  exact invariant.2.2

end Board

/-! ## Connections -/

/-- A connection that is asked for. -/
structure Connection where
  color : ColorCode
  points : List (Option Endpoint)
  deriving Repr, DecidableEq

namespace Connection

/-- A connection puts wires of a color between endpoints: they are at least two, none of them is
missing, and the code is that of the color or that of both colors. -/
structure Lays (connection : Connection) (color : Color) (points : List Endpoint) : Prop where
  enough : 2 ≤ points.length
  present : connection.points = points.map some
  includes : connection.color = .both ∨ connection.color.single? = some color

/-- The wires of a connection. One that is refused has none. -/
def wires (connection : Connection) : List (Color × List Endpoint) :=
  if connection.points.length < 2 then
    []
  else
    match connection.points.mapM id, connection.color.wires? with
    | some points, some colors => colors.map (·, points)
    | _, _ => []

end Connection

namespace Board

/-- Ask for a connection. A refused one changes nothing. -/
def attempt (board : Board) (connection : Connection) : Board :=
  match board.connect connection.color connection.points with
  | .ok connected => connected
  | .error _ => board

/-- Ask for connections one after another. -/
def attemptAll (board : Board) (connections : List Connection) : Board :=
  connections.foldl attempt board

end Board

namespace Connection

/-- All endpoints of a list are there exactly if the list is one of endpoints. -/
theorem mapM_id_eq_some_iff
    {options : List (Option Endpoint)}
    {points : List Endpoint} :
    options.mapM id = some points ↔ options = points.map some := by
  induction options generalizing points with
  | nil =>
      cases points <;> simp
  | cons option rest inductionHypothesis =>
      cases option with
      | none =>
          cases points <;> simp
      | some point =>
          simp only [List.mapM_cons, id_eq, Option.bind_eq_bind, Option.bind_some,
            Option.bind_eq_some_iff, Option.pure_def, Option.some.injEq, inductionHypothesis]
          cases points with
          | nil => simp
          | cons head tail => grind

theorem mem_wires?
    (code : ColorCode)
    (color : Color) :
    (∃ colors, code.wires? = some colors ∧ color ∈ colors) ↔
      code = .both ∨ code.single? = some color := by
  unfold ColorCode.wires?
  split
  · rename_i both
    subst both
    cases color <;> simp [Color.all]
  · rename_i notBoth
    simp only [notBoth, false_or]
    cases code.single? <;> simp [eq_comm]

theorem mem_wires_iff
    {connection : Connection}
    {color : Color}
    {points : List Endpoint} :
    (color, points) ∈ connection.wires ↔ connection.Lays color points := by
  have lays_iff : connection.Lays color points ↔
      connection.points.mapM id = some points ∧ ¬connection.points.length < 2 ∧
        ∃ colors, connection.color.wires? = some colors ∧ color ∈ colors := by
    rw [mapM_id_eq_some_iff, mem_wires?]
    constructor
    · rintro ⟨enough, present, includes⟩
      refine ⟨present, ?_, includes⟩
      rw [present, List.length_map]
      exact Nat.not_lt.mpr enough
    · rintro ⟨present, enough, includes⟩
      rw [present, List.length_map] at enough
      exact ⟨Nat.not_lt.mp enough, present, includes⟩
  rw [lays_iff, wires]
  split
  · rename_i few
    simp [few]
  · rename_i enough
    cases connection.points.mapM id with
    | none =>
        simp
    | some found =>
        cases connection.color.wires? with
        | none => simp
        | some colors => simp [enough, and_comm, eq_comm]

/-- A connection lays its wires. It is refused if it has none. -/
theorem connect_eq
    (board : Board)
    (connection : Connection) :
    (connection.wires ≠ [] ∧
        board.connect connection.color connection.points = .ok (board.lay connection.wires)) ∨
      (connection.wires = [] ∧
        ∃ misuse, board.connect connection.color connection.points = .error misuse) := by
  unfold Board.connect wires
  split
  · exact .inr ⟨rfl, _, rfl⟩
  · cases connection.points.mapM id with
    | none =>
        exact .inr ⟨rfl, _, rfl⟩
    | some points =>
        cases standsFor : connection.color.wires? with
        | none =>
            exact .inr ⟨rfl, _, rfl⟩
        | some colors =>
            refine .inl ⟨?_, ?_⟩
            · unfold ColorCode.wires? at standsFor
              split at standsFor
              · cases standsFor
                simp [Color.all]
              · obtain ⟨color, -, rfl⟩ := Option.map_eq_some_iff.mp standsFor
                simp
            · rw [Board.lay, List.foldl_map]

theorem attempt_eq
    (board : Board)
    (connection : Connection) :
    board.attempt connection = board.lay connection.wires := by
  unfold Board.attempt
  rcases connect_eq board connection with ⟨-, connected⟩ | ⟨none, misuse, refused⟩
  · rw [connected]
  · rw [refused, none]
    rfl

/-- A connection succeeds, on any board, exactly if it lays wires of some color. -/
theorem connect_eq_ok_iff
    (board : Board)
    (connection : Connection) :
    (∃ connected, board.connect connection.color connection.points = .ok connected) ↔
      ∃ color points, connection.Lays color points := by
  have someWire : connection.wires ≠ [] ↔ ∃ color points, connection.Lays color points := by
    simp only [ne_eq, List.eq_nil_iff_forall_not_mem, not_forall, not_not, Prod.exists,
      mem_wires_iff]
  rw [← someWire]
  rcases connect_eq board connection with ⟨wired, connected⟩ | ⟨none, misuse, refused⟩
  · simp [wired, connected]
  · simp [none, refused]

/-- Connections lay all of their wires. -/
theorem attemptAll_eq
    (board : Board)
    (connections : List Connection) :
    board.attemptAll connections = board.lay (connections.flatMap wires) := by
  induction connections generalizing board with
  | nil =>
      rfl
  | cons connection rest inductionHypothesis =>
      rw [Board.attemptAll, List.foldl_cons, ← Board.attemptAll, inductionHypothesis, attempt_eq,
        List.flatMap_cons, Board.lay, Board.lay, Board.lay, List.foldl_append]

/-- Two endpoints are wired together by one of the connections. -/
def Links
    (connections : List Connection)
    (color : Color)
    (first second : Endpoint) :
    Prop :=
  ∃ connection ∈ connections, ∃ points,
    connection.Lays color points ∧ first ∈ points ∧ second ∈ points

/-- An endpoint is wired by one of the connections. -/
def Reaches (connections : List Connection) (color : Color) (point : Endpoint) : Prop :=
  ∃ connection ∈ connections, ∃ points, connection.Lays color points ∧ point ∈ points

theorem laid_iff_links
    (connections : List Connection)
    (color : Color)
    (first second : Endpoint) :
    Board.Laid (connections.flatMap wires) color first second ↔
      Links connections color first second := by
  simp only [Board.Laid, Links, List.mem_flatMap, mem_wires_iff]
  grind

/-- Wires lead from an endpoint to another one exactly if the first is wired and both are in one class
of the equivalence that the connections generate. -/
theorem transGen_links_iff
    (connections : List Connection)
    (color : Color)
    (first second : Endpoint) :
    Relation.TransGen (Links connections color) first second ↔
      Reaches connections color first ∧
        Relation.EqvGen (Links connections color) first second := by
  have symmetric : Std.Symm (Links connections color) := by
    constructor
    rintro one two ⟨connection, member, points, lays, oneMember, twoMember⟩
    exact ⟨connection, member, points, lays, twoMember, oneMember⟩
  rw [Relation.EqvGen.eqvGen_eq_reflTransGen]
  constructor
  · intro path
    refine ⟨?_, path.to_reflTransGen⟩
    obtain ⟨next, step, -⟩ := Relation.TransGen.head'_iff.mp path
    obtain ⟨connection, member, points, lays, isPoint, -⟩ := step
    exact ⟨connection, member, points, lays, isPoint⟩
  · rintro ⟨⟨connection, member, points, lays, isPoint⟩, path⟩
    exact .head' ⟨connection, member, points, lays, isPoint, isPoint⟩ path

end Connection

namespace Board

/-- The networks of a board are the connected components that connections make of its endpoints. -/
structure IsWiredBy (board : Board) (connections : List Connection) : Prop where
  /-- Endpoints share a network exactly if they are in one class and wired at all. -/
  joined_iff : ∀ color first second, board.Joined color first second ↔
    Connection.Reaches connections color first ∧
      Relation.EqvGen (Connection.Links connections color) first second
  /-- An endpoint points to no network exactly if no connection wires it. -/
  unwired_iff : ∀ color point, board.network? color point = none ↔
    ¬Connection.Reaches connections color point
  /-- The network that an endpoint points to has the color that it is asked for, lists the endpoints
  that point to it once each, and carries what they carry. -/
  network : ∀ color point network, board.network? color point = some network →
    ∃ found, board.networks[network]? = some found ∧ found.color = color ∧ found.points.Nodup ∧
      (∀ other, other ∈ found.points ↔ board.network? color other = some network) ∧
      ∀ signal, found.signals.contains signal = true ↔
        ∃ other ∈ found.points, (board.signals other).contains signal = true
  /-- The endpoints that a network lists point to it. -/
  listed : ∀ network found, board.networks[network]? = some found →
    ∀ point ∈ found.points, board.network? found.color point = some network

theorem isWiredBy_of_spans
    {board : Board}
    {connections : List Connection}
    (spans : board.Spans (connections.flatMap Connection.wires))
    (loaded : board.Loaded) :
    board.IsWiredBy connections := by
  have joinedIff (color : Color) (first second : Endpoint) :
      board.Joined color first second ↔
        Connection.Reaches connections color first ∧
          Relation.EqvGen (Connection.Links connections color) first second := by
    have sameSteps : Laid (connections.flatMap Connection.wires) color =
        Connection.Links connections color := by
      funext one two
      exact propext (Connection.laid_iff_links connections color one two)
    rw [spans.joined_iff, sameSteps, Connection.transGen_links_iff]
  refine ⟨joinedIff, ?_, ?_, ?_⟩
  · intro color point
    have wired := joinedIff color point point
    rw [joined_self_iff] at wired
    rw [← Option.not_isSome_iff_eq_none, wired]
    simp [Relation.EqvGen.refl]
  · intro color point network found
    have listed := spans.tidy.lists_of_network? found
    obtain ⟨points, isRoster, -⟩ := id listed
    obtain ⟨stored, isStored, shape⟩ := Option.map_eq_some_iff.mp isRoster
    obtain ⟨rfl, rfl⟩ := Prod.mk.inj shape
    refine ⟨stored, isStored, rfl, spans.tidy.nodup isRoster, ?_,
      loaded _ _ _ listed stored isStored⟩
    intro other
    rw [spans.tidy.network?_eq_some_iff]
    constructor
    · intro member
      exact ⟨stored.points, isRoster, member⟩
    · rintro ⟨others, sameRoster, member⟩
      obtain ⟨-, rfl⟩ := Prod.mk.inj (Option.some.inj (isRoster.symm.trans sameRoster))
      exact member
  · intro network found isFound point member
    exact spans.tidy.network?_eq_some_iff.mpr ⟨found.points, by simp [roster, isFound], member⟩

/-- After any connections, those that are refused included, networks are the connected components of
the endpoints that were connected. A network that lost an endpoint has been absorbed: it lists no
endpoint and none is on it. -/
theorem networks_are_components
    (entities : Array Entity)
    (connections : List Connection) :
    (∀ (board : Board) (connection : Connection),
      (∃ connected, board.connect connection.color connection.points = .ok connected) ↔
        ∃ color points, connection.Lays color points) ∧
    (attemptAll { entities := entities } connections).IsWiredBy connections ∧
    ∀ earlier later, connections = earlier ++ later →
      ∀ color point network,
        (attemptAll { entities := entities } earlier).network? color point = some network →
          (attemptAll { entities := entities } connections).network? color point = some network ∨
            ((attemptAll { entities := entities } connections).points network = [] ∧
              ∀ asked other,
                (attemptAll { entities := entities } connections).network? asked other ≠
                  some network) := by
  have unwired : Spans { entities := entities } [] := spans_of_unwired rfl
  have spansAfter (calls : List Connection) :
      (attemptAll { entities := entities } calls).Spans (calls.flatMap Connection.wires) := by
    rw [Connection.attemptAll_eq]
    exact unwired.lay (calls.flatMap Connection.wires)
  refine ⟨Connection.connect_eq_ok_iff, isWiredBy_of_spans (spansAfter connections) ?_, ?_⟩
  · rw [Connection.attemptAll_eq]
    refine Loaded.lay ?_ unwired.tidy _
    rintro color network point ⟨points, found, -⟩
    simp [roster] at found
  · rintro earlier later rfl color point network found
    have continued : attemptAll { entities := entities } (earlier ++ later) =
        (attemptAll { entities := entities } earlier).lay (later.flatMap Connection.wires) := by
      rw [← Connection.attemptAll_eq, attemptAll, attemptAll, attemptAll, List.foldl_append]
    have either := (spansAfter earlier).tidy.network?_lay found (later.flatMap Connection.wires)
    rw [← continued] at either
    rcases either with stays | vacant
    · exact .inl stays
    · exact .inr ⟨(spansAfter (earlier ++ later)).tidy.points_of_vacant vacant, vacant⟩

end Board

end CircuitNetwork
