import CircuitNetwork.Groups.Extraction
import CircuitNetwork.Proofs.Groups.Grouping
import CircuitNetwork.Proofs.Signal.Map
import Mathlib.Logic.Relation

namespace CircuitNetwork

/-!
# Extracted groups

Extraction links the networks at an output, the networks at an input, and the
networks at both sides of a combinator that passes values through. For every
signal it finds the groups that these links make.
-/

namespace Collection

variable {collection other : Collection} {board : Board} {Linked : Nat → Nat → Prop}
  {Belongs : Endpoint → Prop}

/-- Two networks are in one group. -/
def Together (collection : Collection) (first second : Nat) : Prop :=
  ∃ root, collection.home first = some root ∧ collection.home second = some root

/-- An endpoint is in the group of a network. -/
def Meets (collection : Collection) (point : Endpoint) (network : Nat) : Prop :=
  ∃ id, collection.HasPoint id (some point) ∧
    collection.home network = some (collection.root id)

theorem Extends.together
    (extended : Extends collection other)
    {first second : Nat}
    (together : collection.Together first second) :
    other.Together first second := by
  obtain ⟨root, firstHome, secondHome⟩ := together
  exact ⟨_, extended.home_eq _ _ firstHome, extended.home_eq _ _ secondHome⟩

theorem Extends.meets
    (extended : Extends collection other)
    (wellformed : collection.Wellformed)
    {point : Endpoint}
    {network : Nat}
    (meets : collection.Meets point network) :
    other.Meets point network := by
  obtain ⟨id, has, atHome⟩ := meets
  refine ⟨id, extended.hasPoint _ _ has, ?_⟩
  rw [extended.home_eq _ _ atHome, extended.root_eq _ _ (wellformed.rooted.root_root id)]

theorem Extends.isSome_home
    (extended : Extends collection other)
    {network : Nat}
    (owned : (collection.home network).isSome) :
    (other.home network).isSome := by
  obtain ⟨root, atHome⟩ := Option.isSome_iff_exists.mp owned
  rw [extended.home_eq _ _ atHome]
  rfl

end Collection

/-! ## Links -/

namespace Board

/-- Whether a combinator has a wildcard operand. -/
def Wild (board : Board) (entity : Nat) : Prop :=
  (board.entity entity).body.operands.any (·.isWildcard) = true

/-- A network at the output of a listed combinator that puts a signal out. -/
def Produced (board : Board) (entities : List Nat) (signal : Signal) (network : Nat) : Prop :=
  ∃ entity ∈ entities, signal ∈ (board.entity entity).body.outputs ∧
    board.Attached (board.output entity) network

/-- A combinator reads a signal, passes it through, or has a wildcard operand. -/
def Receives (board : Board) (entity : Nat) (signal : Signal) : Prop :=
  signal ∈ (board.entity entity).body.operands ∨
    ((board.entity entity).body.passThrough = true ∧
      signal ∈ (board.entity entity).body.outputs) ∨
    board.Wild entity

/-- A combinator without wildcard operand passes a signal through. -/
structure Passes (board : Board) (entity : Nat) (signal : Signal) : Prop where
  passThrough : (board.entity entity).body.passThrough = true
  notWild : ¬board.Wild entity
  output : signal ∈ (board.entity entity).body.outputs

/-- Two networks interact through a signal at one of the listed combinators. -/
inductive Interact (board : Board) (entities : List Nat) (signal : Signal) : Nat → Nat → Prop where
  | output {entity first second : Nat}
      (listed : entity ∈ entities)
      (puts : signal ∈ (board.entity entity).body.outputs)
      (firstAttached : board.Attached (board.output entity) first)
      (secondAttached : board.Attached (board.output entity) second) :
      Interact board entities signal first second
  | input {entity first second : Nat}
      (listed : entity ∈ entities)
      (receives : board.Receives entity signal)
      (firstAttached : board.Attached (board.input entity) first)
      (secondAttached : board.Attached (board.input entity) second) :
      Interact board entities signal first second
  | forward {entity first second : Nat}
      (listed : entity ∈ entities)
      (passes : board.Passes entity signal)
      (firstAttached : board.Attached (board.input entity) first)
      (secondAttached : board.Attached (board.output entity) second) :
      Interact board entities signal first second
  | backward {entity first second : Nat}
      (listed : entity ∈ entities)
      (passes : board.Passes entity signal)
      (firstAttached : board.Attached (board.output entity) first)
      (secondAttached : board.Attached (board.input entity) second) :
      Interact board entities signal first second

theorem Interact.symm
    {board : Board}
    {entities : List Nat}
    {signal : Signal}
    {first second : Nat}
    (interact : board.Interact entities signal first second) :
    board.Interact entities signal second first := by
  cases interact with
  | output listed puts firstAttached secondAttached =>
      exact .output listed puts secondAttached firstAttached
  | input listed receives firstAttached secondAttached =>
      exact .input listed receives secondAttached firstAttached
  | forward listed passes firstAttached secondAttached =>
      exact .backward listed passes secondAttached firstAttached
  | backward listed passes firstAttached secondAttached =>
      exact .forward listed passes secondAttached firstAttached

/-- Two networks are joined by a chain of interactions. -/
def Chained (board : Board) (entities : List Nat) (signal : Signal) : Nat → Nat → Prop :=
  Relation.ReflTransGen (board.Interact entities signal)

theorem chained_equivalence
    (board : Board)
    (entities : List Nat)
    (signal : Signal) :
    Equivalence (board.Chained entities signal) where
  refl := fun _ => .refl
  symm := by
    intro first second chained
    exact Relation.ReflTransGen.mono (fun _ _ => Interact.symm) _ _
      (Relation.reflTransGen_swap.mpr chained)
  trans := .trans

/-- The endpoints that are grouped for a signal: the outputs it is put out through and the inputs it
is read from. -/
def Uses (board : Board) (entities : List Nat) (signal : Signal) (point : Endpoint) : Prop :=
  ∃ entity ∈ entities,
    (point = board.output entity ∧ signal ∈ (board.entity entity).body.outputs) ∨
    (point = board.input entity ∧ ¬board.Wild entity ∧
      signal ∈ (board.entity entity).body.operands)

/-- Which networks of a signal extraction may group, and which of them together. -/
structure Linkage (board : Board) (entities : List Nat) (signal : Signal) where
  Linked : Nat → Nat → Prop
  /-- The networks that can have a group. -/
  Known : Nat → Prop
  /-- The readers of the signal of whose networks all have a group, or none. -/
  Whole : Nat → Prop
  equivalence : Equivalence Linked
  interact : ∀ first second, board.Interact entities signal first second → Known first →
    Known second → Linked first second
  produced : ∀ network, board.Produced entities signal network → Known network
  unproduced : ∀ entity ∈ entities, ¬board.Wild entity →
    signal ∈ (board.entity entity).body.operands →
      (∀ network, board.Attached (board.input entity) network →
        ¬board.Produced entities signal network) →
          ∀ network, board.Attached (board.input entity) network → Known network
  notWild : ∀ entity, Whole entity → ¬board.Wild entity
  reads : ∀ entity, Whole entity → signal ∈ (board.entity entity).body.operands
  apart : ∀ entity, Whole entity → ∀ network, board.Attached (board.input entity) network →
    ¬board.Produced entities signal network
  alike : ∀ entity, Whole entity → ∀ reader ∈ entities,
    signal ∈ (board.entity reader).body.operands →
      ∀ shared, board.Attached (board.input entity) shared →
        board.Attached (board.input reader) shared →
          ∀ network, board.Attached (board.input entity) network →
            board.Attached (board.input reader) network

/-- The networks that have a group when a combinator was seen. -/
def Linkage.Certain
    {board : Board}
    {entities : List Nat}
    {signal : Signal}
    (linkage : Linkage board entities signal)
    (entity network : Nat) :
    Prop :=
  board.Produced entities signal network ∨
    (linkage.Whole entity ∧ board.Attached (board.input entity) network)

/-- Networks are grouped along any chain of interactions. -/
def chains (board : Board) (entities : List Nat) (signal : Signal) :
    Linkage board entities signal where
  Linked := board.Chained entities signal
  Known := fun _ => True
  Whole := fun _ => False
  equivalence := board.chained_equivalence entities signal
  interact := fun _ _ interact _ _ => .single interact
  produced := fun _ _ => trivial
  unproduced := fun _ _ _ _ _ _ _ => trivial
  notWild := nofun
  reads := nofun
  apart := nofun
  alike := nofun

end Board

/-! ## Collections grouped along links -/

namespace SignalGroups

open Collection

variable {board : Board} {entities : List Nat} {signal : Signal}
  {linkage : board.Linkage entities signal} {collection other : Collection}

/-- The collection of a signal is grouped along links. -/
structure Sorted (linkage : board.Linkage entities signal) (collection : Collection) : Prop where
  grouped : Grouped board linkage.Linked (board.Uses entities signal) collection
  known : ∀ network, (collection.home network).isSome → linkage.Known network
  whole : ∀ entity, linkage.Whole entity → ∀ first second,
    board.Attached (board.input entity) first → board.Attached (board.input entity) second →
      (collection.home first).isSome → (collection.home second).isSome

/-- All networks of an endpoint can have a group. -/
structure Fits (linkage : board.Linkage entities signal) (point : Endpoint) : Prop where
  known : ∀ network, board.Attached point network → linkage.Known network
  alike : ∀ entity, linkage.Whole entity → ∀ shared, board.Attached (board.input entity) shared →
    board.Attached point shared → ∀ network, board.Attached (board.input entity) network →
      board.Attached point network

/-- The networks of an endpoint that can have a group are linked. -/
def Joins (linkage : board.Linkage entities signal) (point : Endpoint) : Prop :=
  ∀ first second, board.Attached point first → board.Attached point second →
    linkage.Known first → linkage.Known second → linkage.Linked first second

theorem fits_output
    (linkage : board.Linkage entities signal)
    {entity : Nat}
    (listed : entity ∈ entities)
    (puts : signal ∈ (board.entity entity).body.outputs) :
    Fits linkage (board.output entity) where
  known := fun network attached => linkage.produced network ⟨entity, listed, puts, attached⟩
  alike := by
    intro whole isWhole shared atWhole attached
    exact absurd ⟨entity, listed, puts, attached⟩ (linkage.apart whole isWhole shared atWhole)

theorem fits_input
    (linkage : board.Linkage entities signal)
    {entity : Nat}
    (listed : entity ∈ entities)
    (notWild : ¬board.Wild entity)
    (reads : signal ∈ (board.entity entity).body.operands)
    (unproduced : ∀ network, board.Attached (board.input entity) network →
      ¬board.Produced entities signal network) :
    Fits linkage (board.input entity) where
  known := linkage.unproduced entity listed notWild reads unproduced
  alike := fun whole isWhole => linkage.alike whole isWhole entity listed reads

theorem joins_output
    (linkage : board.Linkage entities signal)
    {entity : Nat}
    (listed : entity ∈ entities)
    (puts : signal ∈ (board.entity entity).body.outputs) :
    Joins linkage (board.output entity) :=
  fun first second firstAttached secondAttached =>
    linkage.interact first second (.output listed puts firstAttached secondAttached)

theorem joins_input
    (linkage : board.Linkage entities signal)
    {entity : Nat}
    (listed : entity ∈ entities)
    (receives : board.Receives entity signal) :
    Joins linkage (board.input entity) :=
  fun first second firstAttached secondAttached =>
    linkage.interact first second (.input listed receives firstAttached secondAttached)

/-- No network gets a home or loses it. -/
theorem Sorted.of_owned_iff
    (sorted : Sorted linkage collection)
    (grouped : Grouped board linkage.Linked (board.Uses entities signal) other)
    (owned_iff : ∀ network, (other.home network).isSome ↔ (collection.home network).isSome) :
    Sorted linkage other where
  grouped := grouped
  known := fun network owned => sorted.known network ((owned_iff network).mp owned)
  whole := by
    intro entity isWhole first second firstAttached secondAttached owned
    rw [owned_iff] at owned ⊢
    exact sorted.whole entity isWhole first second firstAttached secondAttached owned

/-- The networks of an endpoint get a home. -/
theorem Sorted.of_fits
    (sorted : Sorted linkage collection)
    (grouped : Grouped board linkage.Linked (board.Uses entities signal) other)
    (extended : Extends collection other)
    (point : Endpoint)
    (owned : ∀ network, (other.home network).isSome → (collection.home network).isSome ∨
      (board.Attached point network ∧ Fits linkage point ∧
        ∀ asked, board.Attached point asked → (other.home asked).isSome)) :
    Sorted linkage other where
  grouped := grouped
  known := by
    intro network isOwned
    rcases owned network isOwned with before | ⟨attached, fits, -⟩
    · exact sorted.known network before
    · exact fits.known network attached
  whole := by
    intro entity isWhole first second firstAttached secondAttached isOwned
    rcases owned first isOwned with before | ⟨attached, fits, housed⟩
    · exact extended.isSome_home
        (sorted.whole entity isWhole first second firstAttached secondAttached before)
    · exact housed second
        (fits.alike entity isWhole first firstAttached attached second secondAttached)

/-- What one step of extraction does to the collection of a signal. -/
structure Advance
    (linkage : board.Linkage entities signal)
    (collection other : Collection) :
    Prop where
  sorted : Sorted linkage other
  extended : Extends collection other
  /-- New groups have an endpoint. -/
  populated : ∀ id < other.slots.size, collection.slots.size ≤ id →
    ∃ point, other.HasPoint id (some point)

theorem Advance.of_size_eq
    (sorted : Sorted linkage other)
    (extended : Extends collection other)
    (size_eq : other.slots.size = collection.slots.size) :
    Advance linkage collection other :=
  ⟨sorted, extended, fun id inRange new => by omega⟩

theorem Advance.refl
    (sorted : Sorted linkage collection) :
    Advance linkage collection collection :=
  .of_size_eq sorted (.refl sorted.grouped.wellformed) rfl

theorem Advance.trans
    {last : Collection}
    (first : Advance linkage collection other)
    (second : Advance linkage other last) :
    Advance linkage collection last where
  sorted := second.sorted
  extended := first.extended.trans second.extended
  populated := by
    intro id inRange new
    by_cases older : id < other.slots.size
    · obtain ⟨point, has⟩ := first.populated id older new
      exact ⟨point, second.extended.hasPoint id _ has⟩
    · exact second.populated id inRange (by omega)

/-- The groups at an endpoint are merged. -/
theorem Sorted.gather
    (sorted : Sorted linkage collection)
    {point : Endpoint}
    (joins : Joins linkage point) :
    ∃ group other,
      collection.pointGroup board point = (group, other) ∧
        Advance linkage collection other ∧ Gathered board point collection other group := by
  obtain ⟨group, other, gathers, grouped, extended, gathered⟩ :=
    sorted.grouped.pointGroup linkage.equivalence
      (fun first second firstAttached secondAttached firstOwned secondOwned =>
        joins first second firstAttached secondAttached (sorted.known first firstOwned)
          (sorted.known second secondOwned))
  exact ⟨group, other, gathers,
    .of_size_eq (sorted.of_owned_iff grouped gathered.owned_iff) extended gathered.size_eq, gathered⟩

/-- There is a group at an endpoint. -/
theorem Sorted.ensure
    (sorted : Sorted linkage collection)
    {point : Endpoint}
    (joins : Joins linkage point)
    (unowned : (∀ network, board.Attached point network → collection.home network = none) →
      Fits linkage point) :
    ∃ root other,
      collection.ensurePointGroup board point = (root, other) ∧
        Sorted linkage other ∧ Extends collection other ∧
          Ensured board point collection other root := by
  obtain ⟨root, other, ensures, grouped, extended, ensured⟩ :=
    sorted.grouped.ensurePointGroup linkage.equivalence
      (fun first second firstAttached secondAttached firstOwned secondOwned =>
        joins first second firstAttached secondAttached (sorted.known first firstOwned)
          (sorted.known second secondOwned))
      (fun homeless first second firstAttached secondAttached =>
        joins first second firstAttached secondAttached
          ((unowned homeless).known first firstAttached)
          ((unowned homeless).known second secondAttached))
  refine ⟨root, other, ensures, sorted.of_fits grouped extended point ?_, extended, ensured⟩
  intro network owned
  rcases ensured.owned network owned with before | ⟨attached, homeless⟩
  · exact .inl before
  · exact .inr ⟨attached, unowned homeless, ensured.housed homeless⟩

/-- The networks of an endpoint join the group at it. -/
theorem Sorted.house
    (sorted : Sorted linkage collection)
    {point : Endpoint}
    (joins : Joins linkage point)
    (fits : Fits linkage point)
    {id : Nat}
    (isAt : IsAt board point collection id) :
    ∃ root other,
      collection.addNetworks board id point = (root, other) ∧
        Advance linkage collection other ∧ IsAt board point other root ∧
        other.root root = other.root id ∧
        ∀ network, board.Attached point network → (other.home network).isSome := by
  have linked (first second : Nat) (firstAttached : board.Attached point first)
      (secondAttached : board.Attached point second) : linkage.Linked first second :=
    joins first second firstAttached secondAttached (fits.known first firstAttached)
      (fits.known second secondAttached)
  obtain ⟨root, other, added, grouped, extended, inRange, sameRoot, homes⟩ :=
    sorted.grouped.addNetworks linkage.equivalence linked isAt.inRange (by
      intro network member attached atHome
      obtain ⟨anchor, anchorAttached, anchorHome⟩ :=
        isAt.anchored (Board.isConnected_iff.mpr ⟨network, attached⟩)
      exact linkage.equivalence.trans (linked network anchor attached anchorAttached)
        (sorted.grouped.linked anchor member _ anchorHome atHome))
  obtain ⟨sizeEq, owned⟩ :=
    sorted.grouped.wellformed.addNetworks_owned board isAt.inRange point
  rw [added] at sizeEq owned
  have housed (network : Nat) (attached : board.Attached point network) :
      (other.home network).isSome := by
    rw [homes network attached]
    rfl
  have sortedOther : Sorted linkage other := sorted.of_fits grouped extended point (by
    intro network isOwned
    exact (owned network isOwned).imp_right fun attached => ⟨attached, fits, housed⟩)
  refine ⟨root, other, added, .of_size_eq sortedOther extended sizeEq, ⟨inRange, ?_, ?_⟩, sameRoot,
    housed⟩
  · intro connected
    obtain ⟨network, attached⟩ := Board.isConnected_iff.mp connected
    exact ⟨network, attached, homes network attached⟩
  · intro network home attached atHome
    exact Option.some.inj (atHome.symm.trans (homes network attached))

/-- An endpoint joins the group at it. -/
theorem Sorted.join
    (sorted : Sorted linkage collection)
    {point : Endpoint}
    (uses : board.Uses entities signal point)
    {id : Nat}
    (isAt : IsAt board point collection id) :
    Advance linkage collection (collection.addPoint id (some point)) ∧
      (collection.addPoint id (some point)).HasPoint id (some point) ∧
      ∀ network, board.Attached point network → (collection.home network).isSome →
        (collection.addPoint id (some point)).Meets point network := by
  obtain ⟨grouped, extended⟩ :=
    sorted.grouped.addPoint isAt.inRange uses isAt.anchored isAt.only
  obtain ⟨-, sizeEq, rootEq, homeEq, hasPointIff⟩ :=
    sorted.grouped.wellformed.addPoint_eq isAt.inRange (some point)
  have has : (collection.addPoint id (some point)).HasPoint id (some point) :=
    (hasPointIff id _).mpr (.inr ⟨rfl, rfl⟩)
  have sortedAfter := sorted.of_owned_iff grouped fun network => by rw [homeEq]
  refine ⟨.of_size_eq sortedAfter extended sizeEq, has, ?_⟩
  intro network attached owned
  obtain ⟨home, atHome⟩ := Option.isSome_iff_exists.mp owned
  refine ⟨id, has, ?_⟩
  rw [homeEq, rootEq, atHome, isAt.only network home attached atHome]

/-- The group that was made for an endpoint has this endpoint. -/
theorem Advance.of_ensured
    {last : Collection}
    {point : Endpoint}
    {root : Nat}
    (ensured : Ensured board point collection other root)
    (extended : Extends collection other)
    (later : Advance linkage other last)
    (has : last.HasPoint root (some point)) :
    Advance linkage collection last where
  sorted := later.sorted
  extended := extended.trans later.extended
  populated := by
    intro id inRange new
    by_cases older : id < other.slots.size
    · have sameRoot := later.extended.root_eq _ _ (ensured.created id older new)
      exact ⟨point, (hasPoint_congr sameRoot _).mpr has⟩
    · exact later.populated id inRange (by omega)

/-- Two groups with linked networks are merged. -/
theorem Sorted.bridge
    (sorted : Sorted linkage collection)
    {entry exit : Nat}
    (entryInRange : entry < collection.slots.size)
    (exitInRange : exit < collection.slots.size)
    {first second : Nat}
    (firstHome : collection.home first = some (collection.root entry))
    (secondHome : collection.home second = some (collection.root exit))
    (linked : linkage.Linked first second) :
    Advance linkage collection (collection.merge entry exit).2 ∧
      ∀ one two, collection.home one = some (collection.root entry) →
        collection.home two = some (collection.root exit) →
          (collection.merge entry exit).2.Together one two := by
  have grouped := sorted.grouped
  obtain ⟨root, other, merged, fused⟩ := grouped.wellformed.merge_eq entryInRange exitInRange
  obtain ⟨groupedOther, extended⟩ := grouped.fused linkage.equivalence fused (by
    intro one two oneHome twoHome
    exact linkage.equivalence.trans (grouped.linked one first _ oneHome firstHome)
      (linkage.equivalence.trans linked (grouped.linked second two _ secondHome twoHome)))
  have sortedOther := sorted.of_owned_iff groupedOther fun network => by rw [fused.home_eq]; simp
  rw [merged]
  refine ⟨.of_size_eq sortedOther extended fused.size_eq, ?_⟩
  intro one two oneHome twoHome
  refine ⟨root, ?_, ?_⟩
  · rw [fused.home_eq, oneHome, Option.map_some, if_pos (.inl rfl)]
  · rw [fused.home_eq, twoHome, Option.map_some, if_pos (.inr rfl)]

/-! ## The steps of extraction -/

theorem collection_insert
    (groups : SignalGroups)
    (changed asked : Signal)
    (collection : Collection) :
    SignalGroups.collection (groups.insert changed collection) asked =
      if asked = changed then collection else groups.collection asked := by
  simp only [SignalGroups.collection, SignalMap.find?_insert]
  split <;> rfl

/-- A step for another signal leaves the collection alone. -/
theorem Advance.insert_of_ne
    {groups : SignalGroups}
    (sorted : Sorted linkage (groups.collection signal))
    {changed : Signal}
    (different : changed ≠ signal)
    (collection : Collection) :
    Advance linkage (groups.collection signal)
      (SignalGroups.collection (groups.insert changed collection) signal) := by
  rw [collection_insert, if_neg (Ne.symm different)]
  exact .refl sorted

/-- A run of steps keeps what each of them achieves, if that lasts. -/
theorem Advance.foldl
    {α : Type}
    {step : SignalGroups → α → SignalGroups}
    (Done : α → Collection → Prop)
    (lasting : ∀ item collection other, Extends collection other → collection.Wellformed →
      Done item collection → Done item other)
    (items : List α)
    (groups : SignalGroups)
    (sorted : Sorted linkage (groups.collection signal))
    (each : ∀ item ∈ items, ∀ between : SignalGroups,
      Advance linkage (groups.collection signal) (between.collection signal) →
        Advance linkage (between.collection signal) ((step between item).collection signal) ∧
          Done item ((step between item).collection signal)) :
    Advance linkage (groups.collection signal) ((items.foldl step groups).collection signal) ∧
      ∀ item ∈ items, Done item ((items.foldl step groups).collection signal) := by
  induction items generalizing groups with
  | nil =>
      exact ⟨.refl sorted, by simp⟩
  | cons item rest inductionHypothesis =>
      obtain ⟨advance, done⟩ := each item (by simp) groups (.refl sorted)
      obtain ⟨later, laterDone⟩ := inductionHypothesis (step groups item) advance.sorted (by
        intro next isNext between reached
        exact each next (by simp [isNext]) between (advance.trans reached))
      refine ⟨advance.trans later, ?_⟩
      intro asked member
      rcases List.mem_cons.mp member with rfl | isRest
      · exact lasting asked _ _ later.extended advance.sorted.grouped.wellformed done
      · exact laterDone asked isRest

/-- An endpoint is in the group of each of its networks that have a property. -/
structure Housed
    (board : Board)
    (point : Endpoint)
    (Known : Nat → Prop)
    (collection : Collection) :
    Prop where
  exists_hasPoint : ∃ id, collection.HasPoint id (some point)
  meets : ∀ network, board.Attached point network → Known network →
    collection.Meets point network

theorem Housed.lasting
    {point : Endpoint}
    {Known : Nat → Prop}
    (extended : Extends collection other)
    (wellformed : collection.Wellformed)
    (housed : Housed board point Known collection) :
    Housed board point Known other where
  exists_hasPoint := by
    obtain ⟨id, has⟩ := housed.exists_hasPoint
    exact ⟨id, extended.hasPoint _ _ has⟩
  meets := by
    intro network attached known
    exact extended.meets wellformed (housed.meets network attached known)

/-- The networks that an endpoint is in the group of are in one group. -/
theorem Housed.together
    {Known : Nat → Prop}
    {point : Endpoint}
    (housed : Housed board point Known collection)
    {Linked : Nat → Nat → Prop}
    {Belongs : Endpoint → Prop}
    (grouped : Grouped board Linked Belongs collection)
    {first second : Nat}
    (firstAttached : board.Attached point first)
    (secondAttached : board.Attached point second)
    (firstKnown : Known first)
    (secondKnown : Known second) :
    collection.Together first second := by
  obtain ⟨one, oneHas, oneHome⟩ := housed.meets first firstAttached firstKnown
  obtain ⟨two, twoHas, twoHome⟩ := housed.meets second secondAttached secondKnown
  have connected := Board.isConnected_iff.mpr ⟨first, firstAttached⟩
  exact ⟨_, oneHome, grouped.single two one point twoHas oneHas connected ▸ twoHome⟩

/-- The step for one output of a listed combinator. -/
theorem addOutput_advance
    {groups : SignalGroups}
    (sorted : Sorted linkage (groups.collection signal))
    {entity : Nat}
    (listed : entity ∈ entities)
    {put : Signal}
    (puts : put ∈ (board.entity entity).body.outputs) :
    Advance linkage (groups.collection signal)
        ((addOutput board (board.output entity) groups put).collection signal) ∧
      (put = signal → Housed board (board.output entity) (fun _ => True)
        ((addOutput board (board.output entity) groups put).collection signal)) := by
  by_cases isSignal : put = signal
  · subst isSignal
    have joins := joins_output linkage listed puts
    have fits := fits_output linkage listed puts
    obtain ⟨root, made, ensures, sortedMade, extended, ensured⟩ :=
      sorted.ensure joins fun _ => fits
    obtain ⟨home, added, adds, advance, isAt, sameRoot, owned⟩ :=
      sortedMade.house joins fits ensured.isAt
    obtain ⟨later, has, meets⟩ :=
      advance.sorted.join ⟨entity, listed, .inl ⟨rfl, puts⟩⟩ isAt
    have hasRoot := (hasPoint_congr (later.extended.root_eq _ _ sameRoot) _).mp has
    simp only [addOutput, ensures, adds, collection_insert, if_pos]
    exact ⟨Advance.of_ensured ensured extended (advance.trans later) hasRoot, fun _ => ⟨⟨home, has⟩,
      fun network attached _ => meets network attached (owned network attached)⟩⟩
  · exact ⟨.insert_of_ne sorted isSignal _, fun same => absurd same isSignal⟩

/-- The step for one operand of a listed combinator without wildcard operand. -/
theorem addReader_advance
    {groups : SignalGroups}
    (sorted : Sorted linkage (groups.collection signal))
    (owned : ∀ network, board.Produced entities signal network →
      ((groups.collection signal).home network).isSome)
    {entity : Nat}
    (listed : entity ∈ entities)
    (notWild : ¬board.Wild entity)
    {read : Signal}
    (reads : read ∈ (board.entity entity).body.operands) :
    Advance linkage (groups.collection signal)
        ((addReader board (board.input entity) groups read).collection signal) ∧
      (read = signal → Housed board (board.input entity) (linkage.Certain entity)
        ((addReader board (board.input entity) groups read).collection signal)) := by
  by_cases isSignal : read = signal
  · subst isSignal
    obtain ⟨root, made, ensures, sortedMade, extended, ensured⟩ :=
      sorted.ensure (joins_input linkage listed (.inl reads)) (by
        intro homeless
        refine fits_input linkage listed notWild reads fun network attached produced => ?_
        have isOwned := owned network produced
        rw [homeless network attached] at isOwned
        cases isOwned)
    obtain ⟨later, has, meets⟩ :=
      sortedMade.join ⟨entity, listed, .inr ⟨rfl, notWild, reads⟩⟩ ensured.isAt
    simp only [addReader, ensures, collection_insert, if_pos]
    refine ⟨Advance.of_ensured ensured extended later has, fun _ => ⟨⟨root, has⟩, ?_⟩⟩
    intro network attached certain
    refine meets network attached ?_
    rcases certain with produced | ⟨isWhole, -⟩
    · exact extended.isSome_home (owned network produced)
    · -- Either a network of the reader has a home, and so all have, or all got one.
      by_cases homeless : ∀ asked, board.Attached (board.input entity) asked →
          (groups.collection read).home asked = none
      · exact ensured.housed homeless network attached
      · push Not at homeless
        obtain ⟨asked, askedAttached, isOwned⟩ := homeless
        exact extended.isSome_home (sorted.whole entity isWhole asked network askedAttached
          attached (Option.isSome_iff_ne_none.mpr isOwned))
  · exact ⟨.insert_of_ne sorted isSignal _, fun same => absurd same isSignal⟩

/-- The networks with a property at two endpoints are in one group. -/
def Merged
    (board : Board)
    (entry exit : Endpoint)
    (Known : Nat → Prop)
    (collection : Collection) :
    Prop :=
  ∀ first second, board.Attached entry first → board.Attached exit second →
    Known first → Known second → collection.Together first second

theorem Merged.lasting
    {entry exit : Endpoint}
    {Known : Nat → Prop}
    (extended : Extends collection other)
    (merged : Merged board entry exit Known collection) :
    Merged board entry exit Known other := by
  intro first second firstAttached secondAttached firstKnown secondKnown
  exact extended.together (merged first second firstAttached secondAttached firstKnown secondKnown)

/-- Looking up the group at an endpoint merges the groups of its networks. -/
theorem merged_of_gathered
    {point : Endpoint}
    {group : Option Nat}
    (gathered : Gathered board point collection other group)
    {Known : Nat → Prop}
    (owned : ∀ network, Known network → (collection.home network).isSome) :
    Merged board point point Known other := by
  intro first second firstAttached secondAttached firstKnown secondKnown
  cases group with
  | none => exact absurd (owned first firstKnown) (gathered.not_owned firstAttached)
  | some root =>
      exact ⟨root, gathered.home_eq firstAttached (owned first firstKnown),
        gathered.home_eq secondAttached (owned second secondKnown)⟩

/-- The step for one signal at a listed combinator that receives it. -/
theorem mergeAt_advance
    {groups : SignalGroups}
    (sorted : Sorted linkage (groups.collection signal))
    {Known : Nat → Prop}
    (owned : ∀ network, Known network → ((groups.collection signal).home network).isSome)
    {entity : Nat}
    (listed : entity ∈ entities)
    {key : Signal}
    (receives : board.Receives entity key) :
    Advance linkage (groups.collection signal)
        ((mergeAt board (board.input entity) groups key).collection signal) ∧
      (key = signal → Merged board (board.input entity) (board.input entity) Known
        ((mergeAt board (board.input entity) groups key).collection signal)) := by
  by_cases isSignal : key = signal
  · subst isSignal
    obtain ⟨group, other, gathers, advance, gathered⟩ :=
      sorted.gather (joins_input linkage listed receives)
    simp only [mergeAt, gathers, collection_insert, if_pos]
    exact ⟨advance, fun _ => merged_of_gathered gathered owned⟩
  · exact ⟨.insert_of_ne sorted isSignal _, fun same => absurd same isSignal⟩

theorem exists_mergeThrough_eq
    (board : Board)
    (entity : Nat)
    (groups : SignalGroups)
    (passed : Signal) :
    ∃ collection, mergeThrough board entity groups passed = groups.insert passed collection := by
  unfold mergeThrough
  split
  · exact ⟨_, rfl⟩
  · split <;> exact ⟨_, rfl⟩

/-- The groups found at the two sides of a combinator that passes a signal through are merged. -/
theorem Sorted.merge_gathered
    {between found : Collection}
    {entity entry exit : Nat}
    (listed : entity ∈ entities)
    (passes : board.Passes entity signal)
    (sorted : Sorted linkage between)
    (gatheredIn : Gathered board (board.input entity) collection between (some entry))
    (advance : Advance linkage between found)
    (gatheredOut : Gathered board (board.output entity) between found (some exit))
    {Known : Nat → Prop}
    (owned : ∀ network, Known network → (collection.home network).isSome) :
    Advance linkage found (found.merge entry exit).2 ∧
      Merged board (board.input entity) (board.output entity) Known (found.merge entry exit).2 := by
  obtain ⟨anchorIn, attachedIn, anchorInHome⟩ := (gatheredIn.found entry rfl).1
  obtain ⟨anchorOut, attachedOut, anchorOutHome⟩ := (gatheredOut.found exit rfl).1
  have wellformed := advance.sorted.grouped.wellformed
  have entryInRange := Nat.lt_of_lt_of_le (sorted.grouped.wellformed.home_lt anchorInHome)
    advance.extended.size_le
  have exitRoot := wellformed.rooted.root_home anchorOutHome
  have anchorInAfter := advance.extended.home_eq _ _ anchorInHome
  have linked := linkage.interact _ _ (.forward listed passes attachedIn attachedOut)
    (advance.sorted.known anchorIn (by rw [anchorInAfter]; rfl))
    (advance.sorted.known anchorOut (by rw [anchorOutHome]; rfl))
  obtain ⟨merges, together⟩ := advance.sorted.bridge entryInRange
    (wellformed.home_lt anchorOutHome) anchorInAfter (by rw [exitRoot, anchorOutHome]) linked
  refine ⟨merges, ?_⟩
  intro first second firstAttached secondAttached firstKnown secondKnown
  have firstHome := gatheredIn.home_eq firstAttached (owned first firstKnown)
  have secondHome := gatheredOut.home_eq secondAttached
    ((gatheredIn.owned_iff second).mpr (owned second secondKnown))
  exact together first second (advance.extended.home_eq _ _ firstHome) (by rw [exitRoot, secondHome])

/-- The step for one signal that a listed combinator passes through. -/
theorem mergeThrough_advance
    {groups : SignalGroups}
    (sorted : Sorted linkage (groups.collection signal))
    {Known : Nat → Prop}
    (owned : ∀ network, Known network → ((groups.collection signal).home network).isSome)
    {entity : Nat}
    (listed : entity ∈ entities)
    {passed : Signal}
    (passes : board.Passes entity passed) :
    Advance linkage (groups.collection signal)
        ((mergeThrough board entity groups passed).collection signal) ∧
      (passed = signal →
        Merged board (board.input entity) (board.input entity) Known
          ((mergeThrough board entity groups passed).collection signal) ∧
        Merged board (board.input entity) (board.output entity) Known
          ((mergeThrough board entity groups passed).collection signal)) := by
  by_cases isSignal : passed = signal
  · subst isSignal
    obtain ⟨entry, between, gathersIn, advanceIn, gatheredIn⟩ :=
      sorted.gather (joins_input linkage listed
        (.inr (.inl ⟨passes.passThrough, passes.output⟩)))
    have mergedIn := merged_of_gathered gatheredIn owned
    simp only [mergeThrough, gathersIn]
    cases entry with
    | none =>
        simp only [collection_insert, if_pos]
        refine ⟨advanceIn, fun _ => ⟨mergedIn, ?_⟩⟩
        intro first second firstAttached _ firstKnown _
        exact absurd (owned first firstKnown) (gatheredIn.not_owned firstAttached)
    | some entry =>
        obtain ⟨exit, found, gathersOut, advanceOut, gatheredOut⟩ :=
          advanceIn.sorted.gather (joins_output linkage listed passes.output)
        simp only [gathersOut]
        cases exit with
        | none =>
            simp only [collection_insert, if_pos]
            refine ⟨advanceIn.trans advanceOut, fun _ =>
              ⟨mergedIn.lasting advanceOut.extended, ?_⟩⟩
            intro first second _ secondAttached _ secondKnown
            exact absurd ((gatheredIn.owned_iff second).mpr (owned second secondKnown))
              (gatheredOut.not_owned secondAttached)
        | some exit =>
            obtain ⟨advance, mergedThrough⟩ := advanceIn.sorted.merge_gathered listed passes
              gatheredIn advanceOut gatheredOut owned
            simp only [collection_insert, if_pos]
            exact ⟨(advanceIn.trans advanceOut).trans advance, fun _ =>
              ⟨(mergedIn.lasting advanceOut.extended).lasting advance.extended, mergedThrough⟩⟩
  · obtain ⟨collection, inserted⟩ := exists_mergeThrough_eq board entity groups passed
    rw [inserted]
    exact ⟨.insert_of_ne sorted isSignal _, fun same => absurd same isSignal⟩

/-! ## One combinator -/

/-- The step for all outputs of a listed combinator. -/
theorem addOutputs_advance
    {groups : SignalGroups}
    (sorted : Sorted linkage (groups.collection signal))
    {entity : Nat}
    (listed : entity ∈ entities) :
    Advance linkage (groups.collection signal)
        ((addOutputs board groups entity).collection signal) ∧
      (signal ∈ (board.entity entity).body.outputs →
        Housed board (board.output entity) (fun _ => True)
          ((addOutputs board groups entity).collection signal)) := by
  obtain ⟨advance, done⟩ := Advance.foldl
    (fun put collection =>
      put = signal → Housed board (board.output entity) (fun _ => True) collection)
    (fun _ _ _ extended wellformed housed isSignal =>
      Housed.lasting extended wellformed (housed isSignal))
    (board.entity entity).body.outputs groups sorted
    (fun _ puts _ reached => addOutput_advance reached.sorted listed puts)
  exact ⟨advance, fun puts => done signal puts rfl⟩

/-- What a combinator makes of the groups of a signal at its input. -/
structure Received
    (board : Board)
    (signal : Signal)
    (Known : Nat → Prop)
    (entity : Nat)
    (collection : Collection) :
    Prop where
  wild : board.Wild entity → Merged board (board.input entity) (board.input entity) Known collection
  reader : ¬board.Wild entity → signal ∈ (board.entity entity).body.operands →
    Housed board (board.input entity) Known collection
  through : board.Passes entity signal →
    Merged board (board.input entity) (board.input entity) Known collection ∧
      Merged board (board.input entity) (board.output entity) Known collection

theorem Received.lasting
    {entity : Nat}
    {Known : Nat → Prop}
    (extended : Extends collection other)
    (wellformed : collection.Wellformed)
    (received : Received board signal Known entity collection) :
    Received board signal Known entity other where
  wild := fun isWild => (received.wild isWild).lasting extended
  reader := fun notWild reads => (received.reader notWild reads).lasting extended wellformed
  through := fun passes =>
    ⟨(received.through passes).1.lasting extended, (received.through passes).2.lasting extended⟩

theorem Received.mono
    {entity : Nat}
    {Known Fewer : Nat → Prop}
    (received : Received board signal Known entity collection)
    (known : ∀ network, Fewer network → Known network) :
    Received board signal Fewer entity collection := by
  have fewer {entry exit : Endpoint} (merged : Merged board entry exit Known collection) :
      Merged board entry exit Fewer collection :=
    fun first second firstAttached secondAttached firstKnown secondKnown =>
      merged first second firstAttached secondAttached (known first firstKnown)
        (known second secondKnown)
  constructor
  · exact fun isWild => fewer (received.wild isWild)
  · intro notWild reads
    have housed := received.reader notWild reads
    exact ⟨housed.exists_hasPoint, fun network attached isFewer =>
      housed.meets network attached (known network isFewer)⟩
  · exact fun passes => ⟨fewer (received.through passes).1, fewer (received.through passes).2⟩

/-- Networks at an input where a signal is received are in one group. -/
theorem Received.together
    {entity : Nat}
    {Known : Nat → Prop}
    (received : Received board signal Known entity collection)
    {Linked : Nat → Nat → Prop}
    {Belongs : Endpoint → Prop}
    (grouped : Grouped board Linked Belongs collection)
    (receives : board.Receives entity signal)
    {first second : Nat}
    (firstAttached : board.Attached (board.input entity) first)
    (secondAttached : board.Attached (board.input entity) second)
    (firstKnown : Known first)
    (secondKnown : Known second) :
    collection.Together first second := by
  by_cases isWild : board.Wild entity
  · exact received.wild isWild first second firstAttached secondAttached firstKnown secondKnown
  · rcases receives with reads | ⟨passThrough, puts⟩ | isWild'
    · exact (received.reader isWild reads).together grouped firstAttached secondAttached firstKnown
        secondKnown
    · exact (received.through ⟨passThrough, isWild, puts⟩).1 first second firstAttached
        secondAttached firstKnown secondKnown
    · exact absurd isWild' isWild

/-- A signal without collection has no networks. -/
theorem mem_keys_of_home
    {groups : SignalGroups}
    {network : Nat}
    (owned : ((groups.collection signal).home network).isSome) :
    signal ∈ SignalMap.keys groups := by
  by_contra missing
  rw [SignalMap.mem_keys_iff, SignalMap.contains, Option.not_isSome_iff_eq_none] at missing
  simp [SignalGroups.collection, missing, Collection.home] at owned

/-- A listed combinator with a wildcard operand merges the groups at its input. -/
theorem mergeKeys_advance
    {groups : SignalGroups}
    (sorted : Sorted linkage (groups.collection signal))
    (owned : ∀ network, board.Produced entities signal network →
      ((groups.collection signal).home network).isSome)
    {entity : Nat}
    (listed : entity ∈ entities)
    (isWild : board.Wild entity) :
    Advance linkage (groups.collection signal)
        (((SignalMap.keys groups).foldl (mergeAt board (board.input entity)) groups).collection
          signal) ∧
      Merged board (board.input entity) (board.input entity) (board.Produced entities signal)
        (((SignalMap.keys groups).foldl (mergeAt board (board.input entity)) groups).collection
          signal) := by
  obtain ⟨advance, done⟩ := Advance.foldl
    (fun key collection => key = signal →
      Merged board (board.input entity) (board.input entity)
        (board.Produced entities signal) collection)
    (fun _ _ _ extended _ merged isSignal => (merged isSignal).lasting extended)
    (SignalMap.keys groups) groups sorted
    (fun _ _ _ reached => mergeAt_advance reached.sorted
      (fun network produced => reached.extended.isSome_home (owned network produced)) listed
      (.inr (.inr isWild)))
  refine ⟨advance, ?_⟩
  intro first second firstAttached secondAttached firstProduced
  exact done signal (mem_keys_of_home (owned first firstProduced)) rfl first second firstAttached
    secondAttached firstProduced

/-- The input of a listed combinator without wildcard operand joins the groups of its operands. -/
theorem addOperands_advance
    {groups : SignalGroups}
    (sorted : Sorted linkage (groups.collection signal))
    (owned : ∀ network, board.Produced entities signal network →
      ((groups.collection signal).home network).isSome)
    {entity : Nat}
    (listed : entity ∈ entities)
    (notWild : ¬board.Wild entity) :
    Advance linkage (groups.collection signal)
        (((board.entity entity).body.operands.foldl (addReader board (board.input entity))
          groups).collection signal) ∧
      (signal ∈ (board.entity entity).body.operands →
        Housed board (board.input entity) (linkage.Certain entity)
          (((board.entity entity).body.operands.foldl (addReader board (board.input entity))
            groups).collection signal)) := by
  obtain ⟨advance, done⟩ := Advance.foldl
    (fun read collection => read = signal →
      Housed board (board.input entity) (linkage.Certain entity) collection)
    (fun _ _ _ extended wellformed housed isSignal =>
      (housed isSignal).lasting extended wellformed)
    (board.entity entity).body.operands groups sorted
    (fun _ reads _ reached => addReader_advance reached.sorted
      (fun network produced => reached.extended.isSome_home (owned network produced)) listed
      notWild reads)
  exact ⟨advance, fun reads => done signal reads rfl⟩

/-- A listed combinator that passes signals through merges the groups at its two sides. -/
theorem mergeOutputs_advance
    {groups : SignalGroups}
    (sorted : Sorted linkage (groups.collection signal))
    {Known : Nat → Prop}
    (owned : ∀ network, Known network → ((groups.collection signal).home network).isSome)
    {entity : Nat}
    (listed : entity ∈ entities)
    (passThrough : (board.entity entity).body.passThrough = true)
    (notWild : ¬board.Wild entity) :
    Advance linkage (groups.collection signal)
        (((board.entity entity).body.outputs.foldl (mergeThrough board entity) groups).collection
          signal) ∧
      (board.Passes entity signal →
        Merged board (board.input entity) (board.input entity) Known
          (((board.entity entity).body.outputs.foldl (mergeThrough board entity) groups).collection
            signal) ∧
        Merged board (board.input entity) (board.output entity) Known
          (((board.entity entity).body.outputs.foldl (mergeThrough board entity) groups).collection
            signal)) := by
  obtain ⟨advance, done⟩ := Advance.foldl
    (fun passed collection => passed = signal →
      Merged board (board.input entity) (board.input entity) Known collection ∧
        Merged board (board.input entity) (board.output entity) Known collection)
    (fun _ _ _ extended _ merged isSignal =>
      ⟨(merged isSignal).1.lasting extended, (merged isSignal).2.lasting extended⟩)
    (board.entity entity).body.outputs groups sorted
    (fun _ puts _ reached => mergeThrough_advance reached.sorted
      (fun network known => reached.extended.isSome_home (owned network known)) listed
      ⟨passThrough, notWild, puts⟩)
  exact ⟨advance, fun passes => done signal passes.output rfl⟩

/-- The step for everything that a listed combinator reads. -/
theorem addReaders_advance
    {groups : SignalGroups}
    (sorted : Sorted linkage (groups.collection signal))
    (owned : ∀ network, board.Produced entities signal network →
      ((groups.collection signal).home network).isSome)
    {entity : Nat}
    (listed : entity ∈ entities) :
    Advance linkage (groups.collection signal)
        ((addReaders board groups entity).collection signal) ∧
      Received board signal (linkage.Certain entity) entity
        ((addReaders board groups entity).collection signal) := by
  by_cases isWild : board.Wild entity
  · obtain ⟨advance, merged⟩ := mergeKeys_advance sorted owned listed isWild
    have produced (network : Nat) (certain : linkage.Certain entity network) :
        board.Produced entities signal network :=
      certain.resolve_right fun whole => linkage.notWild entity whole.1 isWild
    have unfolded : addReaders board groups entity =
        (SignalMap.keys groups).foldl (mergeAt board (board.input entity)) groups :=
      if_pos isWild
    rw [unfolded]
    refine ⟨advance, ?_, fun notWild => absurd isWild notWild,
      fun passes => absurd isWild passes.notWild⟩
    intro _ first second firstAttached secondAttached firstCertain secondCertain
    exact merged first second firstAttached secondAttached (produced first firstCertain)
      (produced second secondCertain)
  · obtain ⟨advance, housed⟩ := addOperands_advance sorted owned listed isWild
    have unfolded : addReaders board groups entity =
        if (board.entity entity).body.passThrough then
          (board.entity entity).body.outputs.foldl (mergeThrough board entity)
            ((board.entity entity).body.operands.foldl (addReader board (board.input entity)) groups)
        else
          (board.entity entity).body.operands.foldl (addReader board (board.input entity)) groups :=
      if_neg isWild
    rw [unfolded]
    split
    · rename_i passThrough
      have ownedRead (network : Nat) (certain : linkage.Certain entity network) :
          ((((board.entity entity).body.operands.foldl (addReader board (board.input entity))
            groups).collection signal).home network).isSome := by
        rcases certain with produced | ⟨isWhole, attached⟩
        · exact advance.extended.isSome_home (owned network produced)
        · obtain ⟨id, -, atHome⟩ := (housed (linkage.reads entity isWhole)).meets network
            attached (.inr ⟨isWhole, attached⟩)
          rw [atHome]
          rfl
      obtain ⟨later, through⟩ :=
        mergeOutputs_advance advance.sorted ownedRead listed passThrough isWild
      exact ⟨advance.trans later, fun isWild' => absurd isWild' isWild,
        fun _ reads => (housed reads).lasting later.extended advance.sorted.grouped.wellformed,
        through⟩
    · rename_i notPassThrough
      exact ⟨advance, fun isWild' => absurd isWild' isWild, fun _ => housed,
        fun passes => absurd passes.passThrough notPassThrough⟩

/-! ## All combinators -/

theorem sorted_empty
    (linkage : board.Linkage entities signal) :
    Sorted linkage (SignalGroups.collection SignalMap.empty signal) := by
  have homeless (network : Nat) :
      (SignalGroups.collection SignalMap.empty signal).home network = none := rfl
  have pointless (id : Nat) (point : Option Endpoint) :
      ¬(SignalGroups.collection SignalMap.empty signal).HasPoint id point := by
    simp [SignalGroups.collection, HasPoint, groupAt]
  refine ⟨⟨⟨?_, ?_, ?_, ?_, fun _ => rfl⟩, ?_, ?_, ?_, ?_⟩, ?_, ?_⟩
  · intro id
    exact ⟨0, id, .root rfl⟩
  · intro id inRange
    exact absurd inRange (Nat.not_lt_zero id)
  · intro network id found
    cases found
  · intro id _ network
    simp [SignalGroups.collection, groupAt, Collection.home]
  · intro first second root atHome
    rw [homeless] at atHome
    cases atHome
  · intro id point has
    exact absurd has (pointless id point)
  · intro id point has
    exact absurd has (pointless id (some point))
  · intro id asked point has
    exact absurd has (pointless id (some point))
  · intro network owned
    rw [homeless] at owned
    cases owned
  · intro entity _ first _ _ _ owned
    rw [homeless] at owned
    cases owned

theorem extract_eq
    (combinators : ∀ entity ∈ entities, (board.entity entity).body.isCombinator = true) :
    extract board entities = .ok (entities.foldl (addReaders board)
      (entities.foldl (addOutputs board) SignalMap.empty)) := by
  have none : (entities.find? fun id => !(board.entity id).body.isCombinator) = none := by
    simpa using combinators
  rw [extract, none]

/-- What extraction gives for a signal, with any links between its networks. -/
theorem extract_advance
    (linkage : board.Linkage entities signal)
    {groups : SignalGroups}
    (isGroups : groups = entities.foldl (addReaders board)
      (entities.foldl (addOutputs board) SignalMap.empty)) :
    Advance linkage (SignalGroups.collection SignalMap.empty signal) (groups.collection signal) ∧
      (∀ entity ∈ entities, signal ∈ (board.entity entity).body.outputs →
        Housed board (board.output entity) (fun _ => True) (groups.collection signal)) ∧
      ∀ entity ∈ entities,
        Received board signal (linkage.Certain entity) entity (groups.collection signal) := by
  subst isGroups
  obtain ⟨first, producers⟩ := Advance.foldl
    (fun entity collection => signal ∈ (board.entity entity).body.outputs →
      Housed board (board.output entity) (fun _ => True) collection)
    (fun _ _ _ extended wellformed housed puts => (housed puts).lasting extended wellformed)
    entities SignalMap.empty (sorted_empty linkage)
    (fun _ listed _ reached => addOutputs_advance reached.sorted listed)
  have owned (network : Nat) (produced : board.Produced entities signal network) :
      (((entities.foldl (addOutputs board) SignalMap.empty).collection signal).home
        network).isSome := by
    obtain ⟨entity, listed, puts, attached⟩ := produced
    obtain ⟨id, -, atHome⟩ := (producers entity listed puts).meets network attached trivial
    rw [atHome]
    rfl
  obtain ⟨second, received⟩ := Advance.foldl
    (fun entity => Received board signal (linkage.Certain entity) entity)
    (fun _ _ _ extended wellformed before => before.lasting extended wellformed)
    entities _ first.sorted
    (fun _ listed _ reached => addReaders_advance reached.sorted
      (fun network produced => reached.extended.isSome_home (owned network produced)) listed)
  exact ⟨first.trans second,
    fun entity listed puts => (producers entity listed puts).lasting second.extended
      first.sorted.grouped.wellformed,
    received⟩

/-- What extraction gives for one signal. -/
structure Extracted
    (board : Board)
    (entities : List Nat)
    (signal : Signal)
    (collection : Collection) :
    Prop where
  grouped : Grouped board (board.Chained entities signal) (board.Uses entities signal) collection
  producer : ∀ entity ∈ entities, signal ∈ (board.entity entity).body.outputs →
    Housed board (board.output entity) (fun _ => True) collection
  received : ∀ entity ∈ entities,
    Received board signal (board.Produced entities signal) entity collection

/-- A list of combinators has signal groups. -/
theorem exists_extract_eq
    (combinators : ∀ entity ∈ entities, (board.entity entity).body.isCombinator = true) :
    ∃ groups, extract board entities = .ok groups ∧
      ∀ signal, Extracted board entities signal (groups.collection signal) := by
  refine ⟨_, extract_eq combinators, ?_⟩
  intro signal
  obtain ⟨advance, producers, received⟩ :=
    extract_advance (board.chains entities signal) rfl
  exact ⟨advance.sorted.grouped, producers,
    fun entity listed => (received entity listed).mono fun _ => .inl⟩

end SignalGroups

end CircuitNetwork
