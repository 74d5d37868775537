import CircuitNetwork.Wire.Part
import Mathlib.Logic.Relation
import Mathlib.Tactic.Common

namespace CircuitNetwork

/-!
# Networks as classes of endpoints

On a tidy board an endpoint points to a network of a color exactly if the network
lists it, and it is listed there once. Laying wires keeps a board tidy and fuses
the networks at the wired endpoints into one, so that two endpoints share a network
exactly if the wires laid so far lead from one to the other.
-/

namespace Board

/-- The color and the endpoints of a network. -/
def roster (board : Board) (network : Nat) : Option (Color × List Endpoint) :=
  board.networks[network]?.map fun found => (found.color, found.points)

/-- A network of a color lists an endpoint. -/
def Lists
    (board : Board)
    (color : Color)
    (network : Nat)
    (point : Endpoint) :
    Prop :=
  ∃ points, board.roster network = some (color, points) ∧ point ∈ points

/-- Pointers and lists agree: an endpoint points to a network of a color exactly if that network
lists it. No network lists an endpoint twice. -/
structure Tidy (board : Board) : Prop where
  nodup :
    ∀ {network color points},
      board.roster network = some (color, points) → points.Nodup
  network?_eq_some_iff :
    ∀ {color point network},
      board.network? color point = some network ↔ board.Lists color network point

/-- No endpoint is listed on two networks of a color. -/
theorem Tidy.unique
    {board : Board}
    (tidy : board.Tidy)
    {color : Color}
    {point : Endpoint}
    {first second : Nat}
    (atFirst : board.Lists color first point)
    (atSecond : board.Lists color second point) :
    first = second := by
  rw [← tidy.network?_eq_some_iff] at atFirst atSecond
  exact Option.some.inj (atFirst.symm.trans atSecond)

/-- The network that an endpoint points to lists it. -/
theorem Tidy.lists_of_network?
    {board : Board}
    (tidy : board.Tidy)
    {color : Color}
    {point : Endpoint}
    {network : Nat}
    (found : board.network? color point = some network) :
    board.Lists color network point :=
  tidy.network?_eq_some_iff.mp found

/-- An endpoint that points nowhere is listed nowhere. -/
theorem Tidy.not_lists_of_network?
    {board : Board}
    (tidy : board.Tidy)
    {color : Color}
    {point : Endpoint}
    (missing : board.network? color point = none)
    (network : Nat) :
    ¬board.Lists color network point := by
  rw [← tidy.network?_eq_some_iff, missing]
  exact Option.some_ne_none network ∘ Eq.symm

/-! ## What the operations do to the pointers -/

/-- An endpoint points to what it was made to point to last. -/
theorem network?_pointTo
    (board : Board)
    (color asked : Color)
    (point other : Endpoint)
    (network : Nat) :
    (board.pointTo color point network).network? asked other =
      if asked = color ∧ other = point then some network else board.network? asked other := by
  have others (pointers : List ((Color × Endpoint) × Nat))
      (apart : (asked, other) ≠ (color, point)) :
      (pointers.filter (·.1 ≠ (color, point))).lookup (asked, other) =
        pointers.lookup (asked, other) := by
    induction pointers with
    | nil =>
        rfl
    | cons pointer rest inductionHypothesis =>
        obtain ⟨key, target⟩ := pointer
        rw [List.filter_cons]
        split
        · rw [List.lookup_cons, List.lookup_cons, inductionHypothesis]
        · rename_i dropped
          have same : key = (color, point) := by simpa using dropped
          rw [inductionHypothesis, List.lookup_cons, same, beq_eq_false_iff_ne.mpr apart]
  simp only [pointTo, network?, List.lookup_cons]
  by_cases same : asked = color ∧ other = point
  · simp [same]
  · have apart : (asked, other) ≠ (color, point) := by simpa using same
    rw [beq_eq_false_iff_ne.mpr apart, if_neg same]
    exact others board.pointers apart

@[simp] theorem network?_modifyNetwork
    (board : Board)
    (network : Nat)
    (change : Network → Network)
    (color : Color)
    (point : Endpoint) :
    (board.modifyNetwork network change).network? color point = board.network? color point :=
  rfl

/-! ## What the operations do to the rosters -/

theorem getElem?_modifyNetwork
    (board : Board)
    (network asked : Nat)
    (change : Network → Network) :
    (board.modifyNetwork network change).networks[asked]? =
      if asked = network then board.networks[asked]?.map change else board.networks[asked]? := by
  by_cases same : asked = network
  · subst same
    simp [modifyNetwork, Array.getElem?_modify]
  · simp [modifyNetwork, Array.getElem?_modify, same, Ne.symm same]

theorem roster_modifyNetwork
    (board : Board)
    (network asked : Nat)
    (change : Network → Network) :
    (board.modifyNetwork network change).roster asked =
      if asked = network then
        board.networks[asked]?.map fun found => ((change found).color, (change found).points)
      else
        board.roster asked := by
  by_cases same : asked = network
  · subst same
    simp [roster, modifyNetwork, Array.getElem?_modify, Option.map_map, Function.comp_def]
  · simp [roster, modifyNetwork, Array.getElem?_modify, same, Ne.symm same]

theorem roster_attach
    (board : Board)
    (network asked : Nat)
    (point : Endpoint) :
    (board.attach network point).roster asked =
      if asked = network then
        (board.roster asked).map fun (color, points) => (color, points ++ [point])
      else
        board.roster asked := by
  have samePointers (color : Color) :
      (board.pointTo color point network).networks = board.networks := rfl
  unfold attach
  split
  · rename_i missing
    by_cases same : asked = network
    · subst same
      simp [roster, missing]
    · simp [same]
  · rw [roster_modifyNetwork]
    simp [roster, samePointers, Option.map_map, Function.comp_def]

theorem roster_foldl_attach
    (joining : List Endpoint)
    (board : Board)
    (network asked : Nat) :
    (joining.foldl (·.attach network ·) board).roster asked =
      if asked = network then
        (board.roster asked).map fun (color, points) => (color, points ++ joining)
      else
        board.roster asked := by
  induction joining generalizing board with
  | nil =>
      by_cases same : asked = network <;> simp [same]
  | cons point rest inductionHypothesis =>
      rw [List.foldl_cons, inductionHypothesis, roster_attach]
      by_cases same : asked = network
      · simp [same, Option.map_map, Function.comp_def]
      · simp [same]

/-- Attaching endpoints to a network leaves all others as they are. -/
theorem getElem?_foldl_attach_of_ne
    (joining : List Endpoint)
    (board : Board)
    {network asked : Nat}
    (different : asked ≠ network) :
    (joining.foldl (·.attach network ·) board).networks[asked]? = board.networks[asked]? := by
  induction joining generalizing board with
  | nil =>
      rfl
  | cons point rest inductionHypothesis =>
      rw [List.foldl_cons, inductionHypothesis, attach]
      split
      · rfl
      · rw [getElem?_modifyNetwork, if_neg different]
        rfl

/-- A network that is absorbed by another one loses its endpoints to it. -/
theorem roster_absorb
    (board : Board)
    {network absorbed : Nat}
    (different : network ≠ absorbed)
    {color : Color}
    {moved : List Endpoint}
    (found : board.roster absorbed = some (color, moved))
    (asked : Nat) :
    (board.absorb network absorbed).roster asked =
      if asked = network then
        (board.roster asked).map fun (color, points) => (color, points ++ moved)
      else if asked = absorbed then
        some (color, [])
      else
        board.roster asked := by
  obtain ⟨old, stored, shape⟩ := Option.map_eq_some_iff.mp found
  simp only [Prod.mk.injEq] at shape
  obtain ⟨rfl, rfl⟩ := shape
  have signalsOnly : ∀ (target : Board) (set : SignalSet),
      (target.modifyNetwork network fun joined =>
        { joined with signals := joined.signals.union set }).roster asked =
      target.roster asked := by
    intro target set
    rw [roster_modifyNetwork]
    simp [roster]
  have attached := roster_foldl_attach old.points board network asked
  simp only [absorb, stored]
  rw [roster_modifyNetwork]
  by_cases atAbsorbed : asked = absorbed
  · subst atAbsorbed
    rw [if_pos rfl, if_neg (Ne.symm different), if_pos rfl, getElem?_modifyNetwork,
      if_neg (Ne.symm different), getElem?_foldl_attach_of_ne _ _ (Ne.symm different), stored]
    rfl
  · rw [if_neg atAbsorbed, signalsOnly, attached]
    simp [atAbsorbed]

/-- A network of a color is on the board. -/
def HasNetwork (board : Board) (color : Color) (network : Nat) : Prop :=
  ∃ points, board.roster network = some (color, points)

/-- Networks keep their color when an endpoint is attached to one of them. -/
theorem HasNetwork.attach
    {board : Board}
    {color : Color}
    {other : Nat}
    (present : board.HasNetwork color other)
    (network : Nat)
    (point : Endpoint) :
    (board.attach network point).HasNetwork color other := by
  obtain ⟨points, found⟩ := present
  unfold HasNetwork
  rw [roster_attach]
  by_cases atNetwork : other = network
  · subst atNetwork
    simp [found]
  · simp [atNetwork, found]

/-- An endpoint that is attached to a network points to it, and all others point where they did. -/
theorem network?_attach
    {board : Board}
    {color : Color}
    {network : Nat}
    (present : board.HasNetwork color network)
    (point : Endpoint)
    (asked : Color)
    (other : Endpoint) :
    (board.attach network point).network? asked other =
      if asked = color ∧ other = point then some network else board.network? asked other := by
  obtain ⟨points, found⟩ := present
  obtain ⟨stored, isStored, shape⟩ := Option.map_eq_some_iff.mp found
  obtain ⟨rfl, rfl⟩ := Prod.mk.inj shape
  simp only [attach, isStored, network?_modifyNetwork, network?_pointTo]

theorem network?_foldl_attach
    (joining : List Endpoint)
    {board : Board}
    {color : Color}
    {network : Nat}
    (present : board.HasNetwork color network)
    (asked : Color)
    (other : Endpoint) :
    (joining.foldl (·.attach network ·) board).network? asked other =
      if asked = color ∧ other ∈ joining then some network else board.network? asked other := by
  induction joining generalizing board with
  | nil =>
      simp
  | cons point rest inductionHypothesis =>
      rw [List.foldl_cons, inductionHypothesis (present.attach network point),
        network?_attach present]
      grind

/-- The endpoints that an absorbed network lists come to point to the network that takes it in. -/
theorem network?_absorb
    {board : Board}
    {color absorbedColor : Color}
    {network absorbed : Nat}
    (present : board.HasNetwork color network)
    {moved : List Endpoint}
    (found : board.roster absorbed = some (absorbedColor, moved))
    (asked : Color)
    (other : Endpoint) :
    (board.absorb network absorbed).network? asked other =
      if asked = color ∧ other ∈ moved then some network else board.network? asked other := by
  obtain ⟨old, stored, shape⟩ := Option.map_eq_some_iff.mp found
  obtain ⟨rfl, rfl⟩ := Prod.mk.inj shape
  simp only [absorb, stored, network?_modifyNetwork, network?_foldl_attach old.points present]

theorem lists_attach
    {board : Board}
    {color : Color}
    {network : Nat}
    (present : board.HasNetwork color network)
    (point : Endpoint)
    (asked : Color)
    (other : Nat)
    (listed : Endpoint) :
    (board.attach network point).Lists asked other listed ↔
      board.Lists asked other listed ∨
        (asked = color ∧ other = network ∧ listed = point) := by
  obtain ⟨points, found⟩ := present
  unfold Lists
  rw [roster_attach]
  by_cases same : other = network
  · subst same
    simp only [↓reduceIte, found, Option.map_some, Option.some.injEq, Prod.mk.injEq]
    grind
  · simp [same]

theorem lists_absorb
    {board : Board}
    {color : Color}
    {network absorbed : Nat}
    (different : network ≠ absorbed)
    (present : board.HasNetwork color network)
    (absorbedPresent : board.HasNetwork color absorbed)
    (asked : Color)
    (other : Nat)
    (listed : Endpoint) :
    (board.absorb network absorbed).Lists asked other listed ↔
      (board.Lists asked other listed ∧ other ≠ absorbed) ∨
        (asked = color ∧ other = network ∧ board.Lists color absorbed listed) := by
  obtain ⟨points, found⟩ := present
  obtain ⟨moved, absorbedFound⟩ := absorbedPresent
  unfold Lists
  rw [roster_absorb board different absorbedFound]
  by_cases atNetwork : other = network
  · subst atNetwork
    simp only [↓reduceIte, found, Option.map_some, Option.some.injEq, Prod.mk.injEq]
    grind
  · by_cases atAbsorbed : other = absorbed
    · subst atAbsorbed
      simp [atNetwork]
    · simp [atNetwork, atAbsorbed]

/-- An endpoint that points nowhere may be attached to a network. -/
theorem Tidy.attach
    {board : Board}
    (tidy : board.Tidy)
    {color : Color}
    {network : Nat}
    (present : board.HasNetwork color network)
    {point : Endpoint}
    (missing : board.network? color point = none) :
    (board.attach network point).Tidy := by
  have unlisted := tidy.not_lists_of_network? missing
  constructor
  · intro asked askedColor points found
    rw [roster_attach] at found
    split at found
    · rename_i same
      subst same
      obtain ⟨⟨oldColor, old⟩, oldFound, shape⟩ := Option.map_eq_some_iff.mp found
      obtain ⟨present, presentFound⟩ := present
      simp only [Prod.mk.injEq] at shape
      rw [← shape.2]
      refine List.nodup_append.mpr ⟨tidy.nodup oldFound, by simp, ?_⟩
      intro first firstMember second secondMember same
      rw [List.mem_singleton.mp secondMember] at same
      rw [oldFound] at presentFound
      simp only [Option.some.injEq, Prod.mk.injEq] at presentFound
      exact unlisted asked
        ⟨old, by rw [oldFound, presentFound.1], same ▸ firstMember⟩
    · exact tidy.nodup found
  · intro asked other listing
    rw [network?_attach present, lists_attach present]
    split
    · rename_i attached
      obtain ⟨rfl, rfl⟩ := attached
      simp only [unlisted listing, false_or, true_and, and_true, Option.some.injEq]
      exact eq_comm
    · rename_i apart
      rw [tidy.network?_eq_some_iff]
      constructor
      · exact Or.inl
      · rintro (listed | ⟨sameColor, -, samePoint⟩)
        · exact listed
        · exact (apart ⟨sameColor, samePoint⟩).elim

/-- No network lists an endpoint twice after one has taken in another. -/
theorem Tidy.nodup_absorb
    {board : Board}
    (tidy : board.Tidy)
    {color : Color}
    {network absorbed : Nat}
    (different : network ≠ absorbed)
    (present : board.HasNetwork color network)
    (absorbedPresent : board.HasNetwork color absorbed)
    {asked : Nat}
    {askedColor : Color}
    {points : List Endpoint}
    (found : (board.absorb network absorbed).roster asked = some (askedColor, points)) :
    points.Nodup := by
  obtain ⟨moved, absorbedFound⟩ := absorbedPresent
  rw [roster_absorb board different absorbedFound] at found
  split at found
  · rename_i same
    subst same
    obtain ⟨⟨oldColor, old⟩, oldFound, shape⟩ := Option.map_eq_some_iff.mp found
    obtain ⟨present, presentFound⟩ := present
    simp only [Prod.mk.injEq] at shape
    rw [← shape.2]
    refine List.nodup_append.mpr ⟨tidy.nodup oldFound, tidy.nodup absorbedFound, ?_⟩
    intro first firstMember second secondMember same
    subst same
    rw [oldFound] at presentFound
    simp only [Option.some.injEq, Prod.mk.injEq] at presentFound
    rw [presentFound.1] at oldFound
    exact different
      (tidy.unique ⟨old, oldFound, firstMember⟩ ⟨moved, absorbedFound, secondMember⟩)
  · split at found
    · simp only [Option.some.injEq, Prod.mk.injEq] at found
      rw [← found.2]
      exact List.nodup_nil
    · exact tidy.nodup found

/-- A network may take in another one of its color. -/
theorem Tidy.absorb
    {board : Board}
    (tidy : board.Tidy)
    {color : Color}
    {network absorbed : Nat}
    (different : network ≠ absorbed)
    (present : board.HasNetwork color network)
    (absorbedPresent : board.HasNetwork color absorbed) :
    (board.absorb network absorbed).Tidy := by
  refine ⟨tidy.nodup_absorb different present absorbedPresent, ?_⟩
  obtain ⟨moved, absorbedFound⟩ := id absorbedPresent
  intro asked other listing
  rw [network?_absorb present absorbedFound, lists_absorb different present absorbedPresent]
  split
  · rename_i isMoved
    obtain ⟨rfl, member⟩ := isMoved
    have listed : board.Lists asked absorbed other := ⟨moved, absorbedFound, member⟩
    constructor
    · rintro ⟨⟩
      exact .inr ⟨rfl, rfl, listed⟩
    · rintro (⟨elsewhere, notAbsorbed⟩ | ⟨-, rfl, -⟩)
      · exact (notAbsorbed (tidy.unique elsewhere listed)).elim
      · rfl
  · rename_i apart
    rw [tidy.network?_eq_some_iff]
    constructor
    · intro listed
      refine .inl ⟨listed, ?_⟩
      -- A network has one color, so an endpoint of the absorbed network would have moved.
      rintro rfl
      obtain ⟨points, foundRoster, member⟩ := listed
      obtain ⟨rfl, rfl⟩ := Prod.mk.inj (Option.some.inj (absorbedFound.symm.trans foundRoster))
      exact apart ⟨rfl, member⟩
    · rintro (⟨listed, -⟩ | ⟨rfl, -, points, foundRoster, member⟩)
      · exact listed
      · obtain ⟨-, rfl⟩ := Prod.mk.inj (Option.some.inj (absorbedFound.symm.trans foundRoster))
        exact (apart ⟨rfl, member⟩).elim

theorem HasNetwork.of_lists
    {board : Board}
    {color : Color}
    {network : Nat}
    {point : Endpoint}
    (listed : board.Lists color network point) :
    board.HasNetwork color network := by
  obtain ⟨points, found, -⟩ := listed
  exact ⟨points, found⟩

/-- Networks keep their color when an endpoint joins one of them. -/
theorem HasNetwork.join
    {board : Board}
    {color asked : Color}
    {network other : Nat}
    (present : board.HasNetwork asked other)
    (point : Endpoint) :
    (board.join color network point).HasNetwork asked other := by
  unfold Board.join
  split
  · rename_i current currentFound
    split
    · exact present
    · rename_i different
      cases absorbedFound : board.roster current with
      | none =>
          have missing : board.networks[current]? = none := Option.map_eq_none_iff.mp absorbedFound
          rw [absorb, missing]
          exact present
      | some stored =>
          obtain ⟨points, found⟩ := present
          unfold HasNetwork
          rw [roster_absorb board (Ne.symm different) absorbedFound]
          by_cases atNetwork : other = network
          · subst atNetwork
            simp [found]
          · by_cases atCurrent : other = current
            · subst atCurrent
              rw [absorbedFound, Option.some.injEq] at found
              simp [atNetwork, found]
            · simp [atNetwork, atCurrent, found]
  · exact present.attach network point

theorem Tidy.join
    {board : Board}
    (tidy : board.Tidy)
    {color : Color}
    {network : Nat}
    (present : board.HasNetwork color network)
    (point : Endpoint) :
    (board.join color network point).Tidy := by
  unfold Board.join
  split
  · rename_i current currentFound
    split
    · exact tidy
    · rename_i different
      exact tidy.absorb (Ne.symm different) present
        (.of_lists (tidy.lists_of_network? currentFound))
  · rename_i missing
    exact tidy.attach present missing

/-- Two endpoints are on the same network of a color. -/
def Joined
    (board : Board)
    (color : Color)
    (first second : Endpoint) :
    Prop :=
  ∃ network,
    board.network? color first = some network ∧ board.network? color second = some network

theorem joined_iff
    (board : Board)
    (color : Color)
    (first second : Endpoint) :
    board.Joined color first second ↔
      (board.network? color first).isSome ∧
        board.network? color first = board.network? color second := by
  unfold Joined
  rw [Option.isSome_iff_exists]
  grind

instance decidableJoined
    (board : Board)
    (color : Color)
    (first second : Endpoint) :
    Decidable (board.Joined color first second) :=
  decidable_of_iff _ (joined_iff board color first second).symm

/-- The endpoints that point to an absorbed network come to point to the one that takes it in. -/
theorem Tidy.network?_absorb
    {board : Board}
    (tidy : board.Tidy)
    {color : Color}
    {network absorbed : Nat}
    (present : board.HasNetwork color network)
    (absorbedPresent : board.HasNetwork color absorbed)
    (asked : Color)
    (other : Endpoint) :
    (board.absorb network absorbed).network? asked other =
      if asked = color ∧ board.network? color other = some absorbed then
        some network
      else
        board.network? asked other := by
  obtain ⟨moved, found⟩ := absorbedPresent
  have isMoved : other ∈ moved ↔ board.network? color other = some absorbed := by
    rw [tidy.network?_eq_some_iff]
    constructor
    · exact fun member => ⟨moved, found, member⟩
    · rintro ⟨points, sameRoster, member⟩
      obtain ⟨-, rfl⟩ := Prod.mk.inj (Option.some.inj (found.symm.trans sameRoster))
      exact member
  simp only [Board.network?_absorb present found, isMoved]

/-- An endpoint joins a network together with the endpoints that it shares a network with. -/
theorem Tidy.network?_join
    {board : Board}
    (tidy : board.Tidy)
    {color : Color}
    {network : Nat}
    (present : board.HasNetwork color network)
    (point : Endpoint)
    (asked : Color)
    (other : Endpoint) :
    (board.join color network point).network? asked other =
      if asked = color ∧ (other = point ∨ board.Joined color other point) then
        some network
      else
        board.network? asked other := by
  unfold Board.join
  split
  · rename_i current currentFound
    split
    · rename_i same
      subst same
      unfold Joined
      grind
    · rename_i different
      rw [tidy.network?_absorb present (.of_lists (tidy.lists_of_network? currentFound))]
      unfold Joined
      grind
  · rename_i missing
    rw [network?_attach present]
    unfold Joined
    grind

/-! ## Laying wires -/

/-- An endpoint is one of those to be wired, or shares a network with one of them. -/
def Touches
    (board : Board)
    (color : Color)
    (points : List Endpoint)
    (other : Endpoint) :
    Prop :=
  ∃ point ∈ points, other = point ∨ board.Joined color other point

instance decidableTouches
    (board : Board)
    (color : Color)
    (points : List Endpoint)
    (other : Endpoint) :
    Decidable (board.Touches color points other) :=
  inferInstanceAs (Decidable (∃ point ∈ points, other = point ∨ board.Joined color other point))

theorem HasNetwork.foldl_join
    {board : Board}
    {color asked : Color}
    {network other : Nat}
    (present : board.HasNetwork asked other)
    (points : List Endpoint) :
    (points.foldl (·.join color network ·) board).HasNetwork asked other := by
  induction points generalizing board with
  | nil =>
      exact present
  | cons point rest inductionHypothesis =>
      exact inductionHypothesis (present.join point)

theorem Tidy.foldl_join
    {board : Board}
    (tidy : board.Tidy)
    {color : Color}
    {network : Nat}
    (present : board.HasNetwork color network)
    (points : List Endpoint) :
    (points.foldl (·.join color network ·) board).Tidy := by
  induction points generalizing board with
  | nil =>
      exact tidy
  | cons point rest inductionHypothesis =>
      exact inductionHypothesis (tidy.join present point) (present.join point)

theorem Tidy.network?_foldl_join
    {board : Board}
    (tidy : board.Tidy)
    {color : Color}
    {network : Nat}
    (present : board.HasNetwork color network)
    (points : List Endpoint)
    (asked : Color)
    (other : Endpoint) :
    (points.foldl (·.join color network ·) board).network? asked other =
      if asked = color ∧ board.Touches color points other then
        some network
      else
        board.network? asked other := by
  induction points generalizing board with
  | nil =>
      simp [Touches]
  | cons point rest inductionHypothesis =>
      have joinStep := tidy.network?_join present point
      rw [List.foldl_cons,
        inductionHypothesis (tidy.join present point) (present.join point), joinStep]
      by_cases sameColor : asked = color
      · subst sameColor
        -- The class of the first endpoint is at the network already when the rest is wired.
        by_cases withPoint : other = point ∨ board.Joined asked other point
        · have touched : board.Touches asked (point :: rest) other :=
            ⟨point, List.mem_cons_self, withPoint⟩
          simp [withPoint, touched]
        · have sameRest :
              (board.join asked network point).Touches asked rest other ∨
                  board.network? asked other = some network ↔
                board.Touches asked (point :: rest) other ∨
                  board.network? asked other = some network := by
            unfold Touches Joined
            simp only [joinStep, withPoint, and_false, ↓reduceIte, true_and, List.mem_cons,
              exists_eq_or_imp]
            unfold Joined at withPoint ⊢
            grind
          grind
      · simp [sameColor]

/-- A new network without endpoints changes nothing at the endpoints. -/
theorem lists_push
    (board : Board)
    (color asked : Color)
    (network : Nat)
    (point : Endpoint) :
    Lists { board with networks := board.networks.push { color := color } }
        asked network point ↔
      board.Lists asked network point := by
  unfold Lists roster
  rw [Array.getElem?_push]
  split
  · rename_i atEnd
    subst atEnd
    simp
  · rfl

theorem hasNetwork_push
    (board : Board)
    (color : Color) :
    HasNetwork { board with networks := board.networks.push { color := color } }
      color board.networks.size :=
  ⟨[], by simp [roster]⟩

theorem Tidy.push
    {board : Board}
    (tidy : board.Tidy)
    (color : Color) :
    Tidy { board with networks := board.networks.push { color := color } } := by
  constructor
  · intro network asked points found
    unfold roster at found
    rw [Array.getElem?_push] at found
    split at found
    · simp only [Option.map_some, Option.some.injEq, Prod.mk.injEq] at found
      rw [← found.2]
      exact List.nodup_nil
    · exact tidy.nodup found
  · intro asked point network
    rw [lists_push]
    exact tidy.network?_eq_some_iff

/-- Tidiness depends only on the wires of a board. -/
theorem Tidy.of_wires_eq
    {board other : Board}
    (tidy : board.Tidy)
    (same : other.toWires = board.toWires) :
    other.Tidy := by
  obtain ⟨wires, entities⟩ := board
  obtain ⟨otherWires, otherEntities⟩ := other
  subst same
  exact ⟨tidy.nodup, tidy.network?_eq_some_iff⟩

theorem Tidy.wire
    {board : Board}
    (tidy : board.Tidy)
    (color : Color)
    (points : List Endpoint) :
    (board.wire color points).Tidy := by
  unfold Board.wire
  split
  · rename_i network found
    obtain ⟨point, -, pointFound⟩ := List.exists_of_findSome?_eq_some found
    exact tidy.foldl_join (.of_lists (tidy.lists_of_network? pointFound)) points
  · exact (tidy.push color).foldl_join (hasNetwork_push board color) points

/-- When all touched endpoints move to one network, the pairs of touched endpoints are the only new
pairs on a common network. -/
theorem common_iff_of_moved
    {before after : Endpoint → Option Nat}
    {touched : Endpoint → Prop}
    [DecidablePred touched]
    {network : Nat}
    (moved : ∀ point, after point = if touched point then some network else before point)
    (closed :
      ∀ first second shared,
        before first = some shared → before second = some shared →
          touched second → touched first)
    (atNetwork : ∀ point, before point = some network → touched point)
    (first second : Endpoint) :
    (∃ shared, after first = some shared ∧ after second = some shared) ↔
      (∃ shared, before first = some shared ∧ before second = some shared) ∨
        (touched first ∧ touched second) := by
  rw [moved, moved]
  by_cases firstTouched : touched first
  · by_cases secondTouched : touched second
    · simp [firstTouched, secondTouched]
    · simp only [firstTouched, secondTouched, ↓reduceIte, and_false, or_false]
      grind
  · by_cases secondTouched : touched second
    · simp only [firstTouched, secondTouched, ↓reduceIte, and_true, or_false]
      grind
    · simp [firstTouched, secondTouched]

theorem Touches.of_joined
    {board : Board}
    {color : Color}
    {points : List Endpoint}
    {first second : Endpoint}
    {shared : Nat}
    (firstFound : board.network? color first = some shared)
    (secondFound : board.network? color second = some shared)
    (touched : board.Touches color points second) :
    board.Touches color points first := by
  obtain ⟨point, member, rfl | ⟨other, foundAgain, pointFound⟩⟩ := touched
  · exact ⟨second, member, Or.inr ⟨shared, firstFound, secondFound⟩⟩
  · refine ⟨point, member, Or.inr ⟨shared, firstFound, ?_⟩⟩
    rw [pointFound, ← foundAgain, secondFound]

/-- Laying wires moves all endpoints that they touch to one network: one that was at a wired
endpoint, or a new one if there was none. -/
theorem Tidy.exists_network?_wire
    {board : Board}
    (tidy : board.Tidy)
    (color : Color)
    (points : List Endpoint) :
    ∃ network,
      ((∃ point ∈ points, board.network? color point = some network) ∨
        network = board.networks.size) ∧
      ∀ asked other,
        (board.wire color points).network? asked other =
          if asked = color ∧ board.Touches color points other then
            some network
          else
            board.network? asked other := by
  unfold Board.wire
  split
  · rename_i network found
    obtain ⟨point, member, pointFound⟩ := List.exists_of_findSome?_eq_some found
    exact ⟨network, .inl ⟨point, member, pointFound⟩,
      tidy.network?_foldl_join (.of_lists (tidy.lists_of_network? pointFound)) points⟩
  · refine ⟨board.networks.size, .inr rfl, ?_⟩
    exact (tidy.push color).network?_foldl_join (hasNetwork_push board color) points

/-- No endpoint points to a network that is not there yet. -/
theorem Tidy.network?_ne_size
    {board : Board}
    (tidy : board.Tidy)
    (color : Color)
    (point : Endpoint) :
    board.network? color point ≠ some board.networks.size := by
  intro found
  obtain ⟨listed, atEnd, -⟩ := tidy.lists_of_network? found
  simp [roster] at atEnd

/-- Wires fuse the networks of the wired endpoints and leave all other networks as they are. -/
theorem Tidy.joined_wire_iff
    {board : Board}
    (tidy : board.Tidy)
    (color : Color)
    (points : List Endpoint)
    (asked : Color)
    (first second : Endpoint) :
    (board.wire color points).Joined asked first second ↔
      board.Joined asked first second ∨
        (asked = color ∧ board.Touches color points first ∧
          board.Touches color points second) := by
  obtain ⟨network, origin, after⟩ := tidy.exists_network?_wire color points
  by_cases sameColor : asked = color
  · subst sameColor
    have moved := after asked
    simp only [true_and] at moved ⊢
    refine common_iff_of_moved moved (fun _ _ _ => Touches.of_joined) ?_ first second
    intro other otherFound
    rcases origin with ⟨point, member, pointFound⟩ | rfl
    · exact ⟨point, member, .inr ⟨network, otherFound, pointFound⟩⟩
    · exact absurd otherFound (tidy.network?_ne_size asked other)
  · simp [Joined, after, sameColor]

/-! ## Common networks as an equivalence of wired endpoints -/

namespace Joined

variable {board : Board} {color : Color} {first second third : Endpoint}

theorem symm
    (joined : board.Joined color first second) :
    board.Joined color second first := by
  obtain ⟨network, firstFound, secondFound⟩ := joined
  exact ⟨network, secondFound, firstFound⟩

theorem trans
    (joined : board.Joined color first second)
    (onward : board.Joined color second third) :
    board.Joined color first third := by
  obtain ⟨network, firstFound, secondFound⟩ := joined
  obtain ⟨other, foundAgain, thirdFound⟩ := onward
  refine ⟨network, firstFound, ?_⟩
  rw [thirdFound, ← foundAgain, secondFound]

end Joined

theorem joined_self_iff
    {board : Board}
    {color : Color}
    {point : Endpoint} :
    board.Joined color point point ↔ (board.network? color point).isSome := by
  simp [Board.joined_iff]

/-- A wire of a color was laid between two endpoints. -/
def Laid
    (wires : List (Color × List Endpoint))
    (color : Color)
    (first second : Endpoint) :
    Prop :=
  ∃ points, (color, points) ∈ wires ∧ first ∈ points ∧ second ∈ points

/-- Endpoints of a tidy board share a network exactly if the given wires lead from one to the other. -/
structure Spans
    (board : Board)
    (wires : List (Color × List Endpoint)) :
    Prop where
  tidy : board.Tidy
  joined_iff :
    ∀ {color first second},
      board.Joined color first second ↔ Relation.TransGen (Laid wires color) first second

/-- On a board without wires no endpoints share a network. -/
theorem spans_of_unwired
    {board : Board}
    (unwired : board.toWires = {}) :
    board.Spans [] := by
  have noRoster : ∀ network, board.roster network = none := by
    intro network
    simp [roster, unwired]
  have noNetwork : ∀ color point, board.network? color point = none := by
    intro color point
    simp [network?, unwired]
  refine ⟨⟨?_, ?_⟩, ?_⟩
  · intro network color points found
    rw [noRoster] at found
    cases found
  · intro color point network
    rw [noNetwork]
    constructor
    · intro found
      cases found
    · rintro ⟨points, found, -⟩
      rw [noRoster] at found
      cases found
  · intro color first second
    constructor
    · rintro ⟨network, found, -⟩
      rw [noNetwork] at found
      cases found
    · intro path
      induction path with
      | single step =>
          obtain ⟨points, member, -⟩ := step
          exact (List.not_mem_nil member).elim
      | tail _ step _ =>
          obtain ⟨points, member, -⟩ := step
          exact (List.not_mem_nil member).elim

namespace Spans

variable {board : Board} {wires : List (Color × List Endpoint)}

/-- Only which wires were laid matters, not their order. -/
theorem congr
    (spans : board.Spans wires)
    {others : List (Color × List Endpoint)}
    (same : ∀ wire, wire ∈ wires ↔ wire ∈ others) :
    board.Spans others := by
  refine ⟨spans.tidy, ?_⟩
  intro color first second
  have sameLaid : Laid wires color = Laid others color := by
    funext from_ to_
    simp only [Laid, same]
  rw [spans.joined_iff, sameLaid]

/-- Which endpoints share a network depends only on the wires of a board. -/
theorem of_wires_eq
    (spans : board.Spans wires)
    {other : Board}
    (same : other.toWires = board.toWires) :
    other.Spans wires := by
  refine ⟨spans.tidy.of_wires_eq same, ?_⟩
  intro color first second
  rw [← spans.joined_iff, Joined, Joined, network?, network?, network?, network?, same]

theorem wire
    (spans : board.Spans wires)
    (color : Color)
    (points : List Endpoint) :
    (board.wire color points).Spans ((color, points) :: wires) := by
  refine ⟨spans.tidy.wire color points, ?_⟩
  intro asked first second
  rw [spans.tidy.joined_wire_iff]
  have earlier : ∀ {from_ to_},
      board.Joined asked from_ to_ →
        Relation.TransGen (Laid ((color, points) :: wires) asked) from_ to_ := by
    intro from_ to_ joined
    refine Relation.TransGen.mono ?_ _ _ (spans.joined_iff.mp joined)
    rintro start finish ⟨laid, member, ends⟩
    exact ⟨laid, List.mem_cons_of_mem _ member, ends⟩
  constructor
  · rintro (joined | ⟨rfl, touched, otherTouched⟩)
    · exact earlier joined
    · obtain ⟨point, member, atPoint⟩ := touched
      obtain ⟨other, otherMember, atOther⟩ := otherTouched
      have across : Relation.TransGen (Laid ((asked, points) :: wires) asked) point other :=
        .single ⟨points, List.mem_cons_self, member, otherMember⟩
      have fromFirst :
          Relation.TransGen (Laid ((asked, points) :: wires) asked) first other := by
        rcases atPoint with rfl | joined
        · exact across
        · exact (earlier joined).trans across
      rcases atOther with rfl | joined
      · exact fromFirst
      · exact fromFirst.trans (earlier joined.symm)
  · intro path
    rw [← spans.tidy.joined_wire_iff]
    have oneStep : ∀ {from_ to_},
        Laid ((color, points) :: wires) asked from_ to_ →
          (board.wire color points).Joined asked from_ to_ := by
      rintro from_ to_ ⟨laid, member, atStart, atEnd⟩
      rw [spans.tidy.joined_wire_iff]
      rcases List.mem_cons.mp member with new | old
      · obtain ⟨rfl, rfl⟩ := Prod.mk.inj new
        exact Or.inr ⟨rfl, ⟨from_, atStart, Or.inl rfl⟩, ⟨to_, atEnd, Or.inl rfl⟩⟩
      · exact Or.inl (spans.joined_iff.mpr (.single ⟨laid, old, atStart, atEnd⟩))
    induction path with
    | single step =>
        exact oneStep step
    | tail _ step inductionHypothesis =>
        exact inductionHypothesis.trans (oneStep step)

/-- Laying a list of wires adds them to those that were laid before. -/
theorem lay
    (spans : board.Spans wires)
    (more : List (Color × List Endpoint)) :
    (more.foldl (fun wired wire => wired.wire wire.1 wire.2) board).Spans (wires ++ more) := by
  induction more generalizing board wires with
  | nil =>
      simpa using spans
  | cons wire rest inductionHypothesis =>
      rw [List.foldl_cons]
      apply (inductionHypothesis (spans.wire wire.1 wire.2)).congr
      intro laid
      simp only [List.mem_append, List.mem_cons]
      grind

/-- The ends of a wire are on a common network. -/
theorem joined_of_mem
    (spans : board.Spans wires)
    {color : Color}
    {points : List Endpoint}
    (laid : (color, points) ∈ wires)
    {first second : Endpoint}
    (firstMember : first ∈ points)
    (secondMember : second ∈ points) :
    board.Joined color first second :=
  spans.joined_iff.mpr (.single ⟨points, laid, firstMember, secondMember⟩)

/-- A labelling that is constant along every wire is constant on every network. -/
theorem label_eq
    {α : Type}
    (spans : board.Spans wires)
    {color : Color}
    {label : Endpoint → α}
    (constant :
      ∀ points, (color, points) ∈ wires →
        ∀ first ∈ points, ∀ second ∈ points, label first = label second)
    {first second : Endpoint}
    (joined : board.Joined color first second) :
    label first = label second := by
  have path := spans.joined_iff.mp joined
  induction path with
  | single step =>
      obtain ⟨points, laid, atStart, atEnd⟩ := step
      exact constant points laid _ atStart _ atEnd
  | tail _ step inductionHypothesis =>
      obtain ⟨points, laid, atStart, atEnd⟩ := step
      rw [inductionHypothesis (spans.joined_iff.mpr ‹_›)]
      exact constant points laid _ atStart _ atEnd

end Spans

@[simp] theorem toWires_addAll
    (board : Board)
    (bodies : List Body) :
    (board.addAll bodies).toWires = board.toWires := by
  induction bodies generalizing board with
  | nil =>
      rfl
  | cons body rest inductionHypothesis =>
      exact inductionHypothesis (board.add body)

theorem Tidy.install
    {board : Board}
    (tidy : board.Tidy)
    (part : Part) :
    (board.install part).Tidy := by
  have wires (wired : Board) (laid : List (Color × List Endpoint)) (tidyBefore : wired.Tidy) :
      (laid.foldl (fun wired (color, points) =>
        wired.wire color (points.map (·.shift board.size))) wired).Tidy := by
    induction laid generalizing wired with
    | nil =>
        exact tidyBefore
    | cons wire rest inductionHypothesis =>
        exact inductionHypothesis _ (tidyBefore.wire _ _)
  exact wires _ part.wires (tidy.of_wires_eq (toWires_addAll board part.bodies))

/-- Installing a part lays its wires where the part comes to stand. -/
theorem Spans.install
    {board : Board}
    {wires : List (Color × List Endpoint)}
    (spans : board.Spans wires)
    (part : Part) :
    (board.install part).Spans
      (wires ++ part.wires.map fun wire => (wire.1, wire.2.map (·.shift board.size))) := by
  have added := spans.of_wires_eq (toWires_addAll board part.bodies)
  have laid := added.lay (part.wires.map fun wire => (wire.1, wire.2.map (·.shift board.size)))
  rw [List.foldl_map] at laid
  exact laid

theorem Spans.joined_install
    {board : Board}
    {wires : List (Color × List Endpoint)}
    (spans : board.Spans wires)
    (part : Part)
    {color : Color}
    {first second : Endpoint}
    (joined : board.Joined color first second) :
    (board.install part).Joined color first second := by
  rw [spans.joined_iff] at joined
  refine (spans.install part).joined_iff.mpr (Relation.TransGen.mono ?_ _ _ joined)
  rintro from_ to_ ⟨points, member, ends⟩
  exact ⟨points, List.mem_append_left _ member, ends⟩

/-! ## Wires and entities -/

@[simp] theorem entities_attach
    (board : Board)
    (network : Nat)
    (point : Endpoint) :
    (board.attach network point).entities = board.entities := by
  unfold attach
  split <;> rfl

theorem entities_foldl_attach
    (board : Board)
    (network : Nat)
    (points : List Endpoint) :
    (points.foldl (·.attach network ·) board).entities = board.entities := by
  induction points generalizing board with
  | nil =>
      rfl
  | cons point rest inductionHypothesis =>
      rw [List.foldl_cons, inductionHypothesis, entities_attach]

@[simp] theorem entities_absorb
    (board : Board)
    (network absorbed : Nat) :
    (board.absorb network absorbed).entities = board.entities := by
  unfold absorb
  split
  · rfl
  · exact entities_foldl_attach _ _ _

@[simp] theorem entities_join
    (board : Board)
    (color : Color)
    (network : Nat)
    (point : Endpoint) :
    (board.join color network point).entities = board.entities := by
  unfold join
  split
  · split
    · rfl
    · exact entities_absorb _ _ _
  · exact entities_attach _ _ _

theorem entities_foldl_join
    (board : Board)
    (color : Color)
    (network : Nat)
    (points : List Endpoint) :
    (points.foldl (·.join color network ·) board).entities = board.entities := by
  induction points generalizing board with
  | nil =>
      rfl
  | cons point rest inductionHypothesis =>
      rw [List.foldl_cons, inductionHypothesis, entities_join]

@[simp] theorem entities_wire
    (board : Board)
    (color : Color)
    (points : List Endpoint) :
    (board.wire color points).entities = board.entities := by
  unfold wire
  split <;> simp only [entities_foldl_join]

end Board

end CircuitNetwork
