import CircuitNetwork.Proofs.Groups.Members

namespace CircuitNetwork

/-!
# Grouping networks and endpoints

While a collection grows, groups are only merged: what is together stays
together. Networks are in one group only if they are linked, and a connected
endpoint is in one group only, that of one of its networks.
-/

/-- A network is attached to an endpoint. -/
def Board.Attached (board : Board) (point : Endpoint) (network : Nat) : Prop :=
  ∃ color, board.network? color point = some network

theorem Board.isConnected_iff
    {board : Board}
    {point : Endpoint} :
    board.isConnected point = true ↔ ∃ network, board.Attached point network := by
  simp only [isConnected, Color.all, List.any_cons, List.any_nil, Bool.or_false, Bool.or_eq_true,
    Option.isSome_iff_exists, Attached]
  constructor
  · rintro (⟨network, found⟩ | ⟨network, found⟩)
    · exact ⟨network, .red, found⟩
    · exact ⟨network, .green, found⟩
  · rintro ⟨network, color, found⟩
    cases color with
    | red => exact .inl ⟨network, found⟩
    | green => exact .inr ⟨network, found⟩

namespace Collection

variable {collection other : Collection}

/-- Everything that is together in a collection is together in another one. -/
structure Extends (collection other : Collection) : Prop where
  wellformed : other.Wellformed
  size_le : collection.slots.size ≤ other.slots.size
  root_eq : ∀ first second, collection.root first = collection.root second →
    other.root first = other.root second
  home_eq : ∀ network root, collection.home network = some root →
    other.home network = some (other.root root)
  hasPoint : ∀ id point, collection.HasPoint id point → other.HasPoint id point

namespace Extends

theorem refl
    (wellformed : collection.Wellformed) :
    Extends collection collection where
  wellformed := wellformed
  size_le := Nat.le_refl _
  root_eq := fun _ _ same => same
  home_eq := by
    intro network root atHome
    rw [wellformed.rooted.root_home atHome, atHome]
  hasPoint := fun _ _ has => has

theorem trans
    {last : Collection}
    (first : Extends collection other)
    (second : Extends other last) :
    Extends collection last where
  wellformed := second.wellformed
  size_le := Nat.le_trans first.size_le second.size_le
  root_eq := fun _ _ same => second.root_eq _ _ (first.root_eq _ _ same)
  home_eq := by
    intro network root atHome
    rw [second.home_eq network _ (first.home_eq network root atHome),
      second.root_eq _ _ (first.wellformed.rooted.root_root root)]
  hasPoint := fun id point has => second.hasPoint id point (first.hasPoint id point has)

end Extends

/-- Networks are grouped only if they are linked. The endpoints belong into groups, and those with
networks into the group of one of these only. -/
structure Grouped
    (board : Board)
    (Linked : Nat → Nat → Prop)
    (Belongs : Endpoint → Prop)
    (collection : Collection) :
    Prop where
  wellformed : collection.Wellformed
  linked : ∀ first second root, collection.home first = some root →
    collection.home second = some root → Linked first second
  belongs : ∀ id point, collection.HasPoint id point → ∃ member, point = some member ∧ Belongs member
  anchored : ∀ id point, collection.HasPoint id (some point) → board.isConnected point →
    ∃ network, board.Attached point network ∧ collection.home network = some (collection.root id)
  single : ∀ id asked point, collection.HasPoint id (some point) →
    collection.HasPoint asked (some point) → board.isConnected point →
      collection.root id = collection.root asked

variable {board : Board} {Linked : Nat → Nat → Prop} {Belongs : Endpoint → Prop}

/-! ## One operation -/

/-- The group that two groups become stays at its root. -/
theorem Fused.root_root
    {first second root : Nat}
    (fused : Fused collection other first second root) :
    other.root root = root := by
  rw [fused.root_eq]
  rcases fused.isEither with rfl | rfl
  · rw [fused.first_root, if_pos (.inl rfl)]
  · rw [fused.second_root, if_pos (.inr rfl)]

theorem Fused.root_lt
    {first second root : Nat}
    (fused : Fused collection other first second root)
    (firstInRange : first < collection.slots.size)
    (secondInRange : second < collection.slots.size) :
    root < other.slots.size := by
  rw [fused.size_eq]
  rcases fused.isEither with rfl | rfl
  · exact firstInRange
  · exact secondInRange

theorem Fused.extends
    {first second root : Nat}
    (fused : Fused collection other first second root)
    (wellformed : collection.Wellformed) :
    Extends collection other where
  wellformed := fused.wellformed
  size_le := Nat.le_of_eq fused.size_eq.symm
  root_eq := by
    intro one two same
    rw [fused.root_eq, fused.root_eq, same]
  home_eq := by
    intro network home atHome
    rw [fused.home_eq, atHome, fused.root_eq, wellformed.rooted.root_home atHome]
    rfl
  hasPoint := by
    intro id point has
    have rootRoot := wellformed.rooted.root_root id
    rw [fused.hasPoint_iff]
    split
    · rename_i either
      rcases either with rfl | rfl
      · exact .inl ((hasPoint_congr rootRoot point).mpr has)
      · exact .inr ((hasPoint_congr rootRoot point).mpr has)
    · exact has

/-- Where an endpoint of two groups that became one was before. -/
theorem Fused.exists_hasPoint
    {first second root : Nat}
    (fused : Fused collection other first second root)
    {id : Nat}
    {point : Option Endpoint}
    (has : other.HasPoint id point) :
    ∃ before, collection.HasPoint before point ∧ other.root before = other.root id := by
  rw [fused.hasPoint_iff] at has
  split at has
  · rename_i either
    have idRoot : other.root id = root := by rw [fused.root_eq, if_pos either]
    rcases has with hadFirst | hadSecond
    · exact ⟨first, hadFirst, by rw [idRoot, fused.root_eq, if_pos (.inl fused.first_root)]⟩
    · exact ⟨second, hadSecond, by rw [idRoot, fused.root_eq, if_pos (.inr fused.second_root)]⟩
  · exact ⟨id, has, rfl⟩

/-- Merging two groups of linked networks. -/
theorem Grouped.fused
    (grouped : Grouped board Linked Belongs collection)
    (equivalence : Equivalence Linked)
    {first second root : Nat}
    (fused : Fused collection other first second root)
    (linked : ∀ one two, collection.home one = some first → collection.home two = some second →
      Linked one two) :
    Grouped board Linked Belongs other ∧ Extends collection other := by
  have wellformed := grouped.wellformed
  have extended := fused.extends wellformed
  refine ⟨⟨fused.wellformed, ?_, ?_, ?_, ?_⟩, extended⟩
  · intro one two home oneHome twoHome
    rw [fused.home_eq, Option.map_eq_some_iff] at oneHome twoHome
    obtain ⟨oneBefore, oneAt, rfl⟩ := oneHome
    obtain ⟨twoBefore, twoAt, same⟩ := twoHome
    by_cases together : oneBefore = twoBefore
    · exact grouped.linked one two _ (together ▸ oneAt) twoAt
    · have apart : oneBefore = first ∧ twoBefore = second ∨
          oneBefore = second ∧ twoBefore = first := by
        have isEither := fused.isEither
        grind
      rcases apart with ⟨rfl, rfl⟩ | ⟨rfl, rfl⟩
      · exact linked one two oneAt twoAt
      · exact equivalence.symm (linked two one twoAt oneAt)
  · intro id point has
    obtain ⟨before, hadPoint, -⟩ := fused.exists_hasPoint has
    exact grouped.belongs before point hadPoint
  · intro id point has connected
    obtain ⟨before, hadPoint, sameRoot⟩ := fused.exists_hasPoint has
    obtain ⟨network, attached, atHome⟩ := grouped.anchored before point hadPoint connected
    refine ⟨network, attached, ?_⟩
    rw [extended.home_eq network _ atHome, ← sameRoot,
      extended.root_eq _ _ (wellformed.rooted.root_root before)]
  · intro id asked point has alsoHas connected
    obtain ⟨before, hadPoint, sameRoot⟩ := fused.exists_hasPoint has
    obtain ⟨also, alsoHad, alsoSame⟩ := fused.exists_hasPoint alsoHas
    rw [← sameRoot, ← alsoSame]
    exact extended.root_eq _ _ (grouped.single before also point hadPoint alsoHad connected)

/-- Nothing is grouped differently. -/
theorem Grouped.of_eq
    (grouped : Grouped board Linked Belongs collection)
    (wellformed : other.Wellformed)
    (size_le : collection.slots.size ≤ other.slots.size)
    (root_eq : ∀ id, other.root id = collection.root id)
    (home_eq : ∀ network, other.home network = collection.home network)
    (hasPoint_iff : ∀ id point, other.HasPoint id point ↔ collection.HasPoint id point) :
    Grouped board Linked Belongs other ∧ Extends collection other := by
  constructor
  · constructor
    · exact wellformed
    · intro first second root firstHome secondHome
      rw [home_eq] at firstHome secondHome
      exact grouped.linked first second root firstHome secondHome
    · intro id point has
      exact grouped.belongs id point ((hasPoint_iff id point).mp has)
    · intro id point has connected
      simp only [home_eq, root_eq]
      exact grouped.anchored id point ((hasPoint_iff id _).mp has) connected
    · intro id asked point has alsoHas connected
      rw [root_eq, root_eq]
      exact grouped.single id asked point ((hasPoint_iff id _).mp has)
        ((hasPoint_iff asked _).mp alsoHas) connected
  · constructor
    · exact wellformed
    · exact size_le
    · intro first second same
      rw [root_eq, root_eq, same]
    · intro network root atHome
      rw [home_eq, root_eq, grouped.wellformed.rooted.root_home atHome, atHome]
    · intro id point has
      exact (hasPoint_iff id point).mpr has

theorem Grouped.sameForest
    (grouped : Grouped board Linked Belongs collection)
    (same : SameForest collection other) :
    Grouped board Linked Belongs other ∧ Extends collection other :=
  grouped.of_eq (same.wellformed grouped.wellformed) (Nat.le_of_eq same.size_eq.symm)
    (same.root_eq grouped.wellformed.rooted) (same.home_eq grouped.wellformed.rooted)
    (same.hasPoint_iff grouped.wellformed.rooted)

/-- A network gets a home if it is linked with those that have the same home. -/
theorem Grouped.own
    (grouped : Grouped board Linked Belongs collection)
    (equivalence : Equivalence Linked)
    {network root : Nat}
    (homeless : collection.home network = none)
    (linked : ∀ neighbor, collection.home neighbor = some root → Linked network neighbor)
    (wellformed : other.Wellformed)
    (size_eq : other.slots.size = collection.slots.size)
    (root_eq : ∀ id, other.root id = collection.root id)
    (home_eq : ∀ asked, other.home asked =
      if asked = network then some root else collection.home asked)
    (hasPoint_iff : ∀ id point, other.HasPoint id point ↔ collection.HasPoint id point) :
    Grouped board Linked Belongs other ∧ Extends collection other := by
  have kept (asked home : Nat) (atHome : collection.home asked = some home) :
      other.home asked = some home := by
    rw [home_eq, if_neg, atHome]
    rintro rfl
    rw [homeless] at atHome
    cases atHome
  constructor
  · constructor
    · exact wellformed
    · intro first second home firstHome secondHome
      rw [home_eq] at firstHome secondHome
      split at firstHome
      · rename_i isFirst
        subst isFirst
        cases firstHome
        split at secondHome
        · rename_i isSecond
          exact isSecond ▸ equivalence.refl _
        · exact linked second secondHome
      · split at secondHome
        · rename_i isSecond
          subst isSecond
          cases secondHome
          exact equivalence.symm (linked first firstHome)
        · exact grouped.linked first second home firstHome secondHome
    · intro id point has
      exact grouped.belongs id point ((hasPoint_iff id point).mp has)
    · intro id point has connected
      obtain ⟨anchor, attached, atHome⟩ :=
        grouped.anchored id point ((hasPoint_iff id _).mp has) connected
      exact ⟨anchor, attached, by rw [root_eq]; exact kept anchor _ atHome⟩
    · intro id asked point has alsoHas connected
      rw [root_eq, root_eq]
      exact grouped.single id asked point ((hasPoint_iff id _).mp has)
        ((hasPoint_iff asked _).mp alsoHas) connected
  · constructor
    · exact wellformed
    · exact Nat.le_of_eq size_eq.symm
    · intro first second same
      rw [root_eq, root_eq, same]
    · intro asked home atHome
      rw [kept asked home atHome, root_eq, grouped.wellformed.rooted.root_home atHome]
    · intro id point has
      exact (hasPoint_iff id point).mpr has

/-- An endpoint joins the group that all of its networks with a home belong to. -/
theorem Grouped.addPoint
    (grouped : Grouped board Linked Belongs collection)
    {id : Nat}
    (inRange : id < collection.slots.size)
    {point : Endpoint}
    (belongs : Belongs point)
    (anchored : board.isConnected point →
      ∃ network, board.Attached point network ∧ collection.home network = some (collection.root id))
    (only : ∀ network home, board.Attached point network → collection.home network = some home →
      home = collection.root id) :
    Grouped board Linked Belongs (collection.addPoint id (some point)) ∧
      Extends collection (collection.addPoint id (some point)) := by
  obtain ⟨wellformed, sizeEq, rootEq, homeEq, hasPointIff⟩ :=
    grouped.wellformed.addPoint_eq inRange (some point)
  -- The endpoint can be in the group already, but in no other one.
  have alone (asked : Nat) (has : collection.HasPoint asked (some point))
      (connected : board.isConnected point = true) :
      collection.root asked = collection.root id := by
    obtain ⟨network, attached, atHome⟩ := grouped.anchored asked point has connected
    exact only network _ attached atHome
  constructor
  · constructor
    · exact wellformed
    · intro first second root firstHome secondHome
      rw [homeEq] at firstHome secondHome
      exact grouped.linked first second root firstHome secondHome
    · intro asked member has
      rcases (hasPointIff asked member).mp has with before | ⟨-, rfl⟩
      · exact grouped.belongs asked member before
      · exact ⟨point, rfl, belongs⟩
    · intro asked member has connected
      simp only [homeEq, rootEq]
      rcases (hasPointIff asked _).mp has with before | ⟨sameRoot, isPoint⟩
      · exact grouped.anchored asked member before connected
      · cases isPoint
        rw [sameRoot]
        exact anchored connected
    · intro first second member firstHas secondHas connected
      rw [rootEq, rootEq]
      rcases (hasPointIff first _).mp firstHas with firstBefore | ⟨firstRoot, isPoint⟩
      · rcases (hasPointIff second _).mp secondHas with secondBefore | ⟨secondRoot, isPoint⟩
        · exact grouped.single first second member firstBefore secondBefore connected
        · cases isPoint
          rw [alone first firstBefore connected, secondRoot]
      · cases isPoint
        rcases (hasPointIff second _).mp secondHas with secondBefore | ⟨secondRoot, -⟩
        · rw [alone second secondBefore connected, firstRoot]
        · rw [firstRoot, secondRoot]
  · constructor
    · exact wellformed
    · exact Nat.le_of_eq sizeEq.symm
    · intro first second same
      rw [rootEq, rootEq, same]
    · intro network root atHome
      rw [homeEq, rootEq, grouped.wellformed.rooted.root_home atHome, atHome]
    · intro asked member has
      exact (hasPointIff asked member).mpr (.inl has)

/-! ## The groups at an endpoint -/

/-- What looking up the group at the networks of an endpoint gives. -/
structure Gathered
    (board : Board)
    (point : Endpoint)
    (collection other : Collection)
    (group : Option Nat) :
    Prop where
  size_eq : other.slots.size = collection.slots.size
  owned_iff : ∀ network, (other.home network).isSome ↔ (collection.home network).isSome
  found : ∀ root, group = some root →
    (∃ network, board.Attached point network ∧ other.home network = some root) ∧
      ∀ network home, board.Attached point network → other.home network = some home → home = root
  missing : group = none → ∀ network, board.Attached point network → collection.home network = none

theorem Gathered.home_eq
    {point : Endpoint}
    {root : Nat}
    (gathered : Gathered board point collection other (some root))
    {network : Nat}
    (attached : board.Attached point network)
    (owned : (collection.home network).isSome) :
    other.home network = some root := by
  obtain ⟨home, atHome⟩ := Option.isSome_iff_exists.mp ((gathered.owned_iff network).mpr owned)
  rw [atHome, (gathered.found root rfl).2 network home attached atHome]

theorem Gathered.not_owned
    {point : Endpoint}
    (gathered : Gathered board point collection other none)
    {network : Nat}
    (attached : board.Attached point network) :
    ¬(collection.home network).isSome := by
  rw [gathered.missing rfl network attached]
  exact Bool.false_ne_true

/-- The group of the network of a color at an endpoint. -/
def homeAt (collection : Collection) (board : Board) (point : Endpoint) (color : Color) :
    Option Nat :=
  (board.network? color point).bind collection.home

theorem exists_homeAt_iff
    {point : Endpoint}
    {home : Nat} :
    (∃ color, collection.homeAt board point color = some home) ↔
      ∃ network, board.Attached point network ∧ collection.home network = some home := by
  constructor
  · rintro ⟨color, atHome⟩
    obtain ⟨network, isNetwork, isHome⟩ := Option.bind_eq_some_iff.mp atHome
    exact ⟨network, ⟨color, isNetwork⟩, isHome⟩
  · rintro ⟨network, ⟨color, isNetwork⟩, atHome⟩
    exact ⟨color, by rw [homeAt, isNetwork]; exact atHome⟩

/-- If at most one group has networks of an endpoint, it is the one at the endpoint. -/
theorem gathered_of_sameForest
    (wellformed : collection.Wellformed)
    (same : SameForest collection other)
    {point : Endpoint}
    {group : Option Nat}
    (agree : ∀ home,
      (∃ color, collection.homeAt board point color = some home) ↔ group = some home) :
    Gathered board point collection other group := by
  have homeEq := same.home_eq wellformed.rooted
  refine ⟨same.size_eq, fun network => by rw [homeEq], ?_, ?_⟩
  · intro root isRoot
    simp only [homeEq]
    refine ⟨exists_homeAt_iff.mp ((agree root).mpr isRoot), ?_⟩
    intro network home attached atHome
    have isHome := (agree home).mp (exists_homeAt_iff.mpr ⟨network, attached, atHome⟩)
    exact Option.some.inj (isHome.symm.trans isRoot)
  · intro isNone network attached
    by_contra owned
    obtain ⟨home, atHome⟩ := Option.ne_none_iff_exists'.mp owned
    have isSome := (agree home).mp (exists_homeAt_iff.mpr ⟨network, attached, atHome⟩)
    rw [isNone] at isSome
    cases isSome

/-- If two groups have networks of an endpoint, what they become is the one at the endpoint. -/
theorem gathered_of_fused
    {point : Endpoint}
    {red green root : Nat}
    (redHome : collection.homeAt board point .red = some red)
    (greenHome : collection.homeAt board point .green = some green)
    (fused : Fused collection other red green root) :
    Gathered board point collection other (some root) := by
  have rootOf {network home : Nat} (atHome : collection.home network = some home)
      (either : home = red ∨ home = green) : other.home network = some root := by
    rw [fused.home_eq, atHome, Option.map_some, if_pos either]
  refine ⟨fused.size_eq, fun network => by rw [fused.home_eq]; simp, ?_,
    fun isNone => by cases isNone⟩
  rintro _ ⟨⟩
  obtain ⟨network, attached, atHome⟩ := exists_homeAt_iff.mp ⟨.red, redHome⟩
  refine ⟨⟨network, attached, rootOf atHome (.inl rfl)⟩, ?_⟩
  intro asked home askedAttached askedHome
  obtain ⟨before, beforeAt, -⟩ := Option.map_eq_some_iff.mp (fused.home_eq asked ▸ askedHome)
  have either : before = red ∨ before = green := by
    obtain ⟨color, isHome⟩ := exists_homeAt_iff.mpr ⟨asked, askedAttached, beforeAt⟩
    cases color with
    | red => exact .inl (Option.some.inj (isHome.symm.trans redHome))
    | green => exact .inr (Option.some.inj (isHome.symm.trans greenHome))
  exact Option.some.inj (askedHome.symm.trans (rootOf beforeAt either))

/-- Looking up the group at an endpoint merges the groups of its two networks, if there are two. -/
theorem Wellformed.pointGroup_eq
    (wellformed : collection.Wellformed)
    (board : Board)
    (point : Endpoint) :
    (∃ group other,
        collection.pointGroup board point = (group, other) ∧ SameForest collection other ∧
          ∀ home, (∃ color, collection.homeAt board point color = some home) ↔
            group = some home) ∨
      ∃ red green root other,
        collection.pointGroup board point = (some root, other) ∧
          collection.homeAt board point .red = some red ∧
          collection.homeAt board point .green = some green ∧
          Fused collection other red green root := by
  obtain ⟨between, redLookup, redSame⟩ := wellformed.rooted.lookup_eq (board.network? .red point)
  obtain ⟨found, greenLookup, greenSame⟩ :=
    (redSame.rooted wellformed.rooted).lookup_eq (board.network? .green point)
  rw [funext (redSame.home_eq wellformed.rooted), ← homeAt] at greenLookup
  rw [← homeAt] at redLookup
  have same := redSame.trans greenSame
  have colors (home : Nat) : (∃ color, collection.homeAt board point color = some home) ↔
      collection.homeAt board point .red = some home ∨
        collection.homeAt board point .green = some home := by
    constructor
    · rintro ⟨color, atHome⟩
      cases color with
      | red => exact .inl atHome
      | green => exact .inr atHome
    · rintro (atHome | atHome)
      · exact ⟨.red, atHome⟩
      · exact ⟨.green, atHome⟩
  simp only [Collection.pointGroup, redLookup, greenLookup, colors]
  cases redHome : collection.homeAt board point .red with
  | none =>
      cases collection.homeAt board point .green with
      | none => exact .inl ⟨_, _, rfl, same, by simp⟩
      | some green => exact .inl ⟨_, _, rfl, same, by simp⟩
  | some red =>
      cases greenHome : collection.homeAt board point .green with
      | none => exact .inl ⟨_, _, rfl, same, by simp⟩
      | some green =>
          obtain ⟨_, -, redAt⟩ := exists_homeAt_iff.mp ⟨.red, redHome⟩
          obtain ⟨_, -, greenAt⟩ := exists_homeAt_iff.mp ⟨.green, greenHome⟩
          obtain ⟨root, other, merged, fused⟩ := (same.wellformed wellformed).merge_eq
            (same.size_eq ▸ wellformed.home_lt redAt) (same.size_eq ▸ wellformed.home_lt greenAt)
          rw [same.root_eq wellformed.rooted, same.root_eq wellformed.rooted,
            wellformed.rooted.root_home redAt, wellformed.rooted.root_home greenAt] at fused
          exact .inr ⟨red, green, root, other, by simp only [merged], rfl, rfl,
            fused.of_sameForest same wellformed.rooted⟩

theorem Grouped.pointGroup
    (grouped : Grouped board Linked Belongs collection)
    (equivalence : Equivalence Linked)
    {point : Endpoint}
    (linked : ∀ first second, board.Attached point first → board.Attached point second →
      (collection.home first).isSome → (collection.home second).isSome → Linked first second) :
    ∃ group other,
      collection.pointGroup board point = (group, other) ∧
        Grouped board Linked Belongs other ∧ Extends collection other ∧
          Gathered board point collection other group := by
  rcases grouped.wellformed.pointGroup_eq board point with
    ⟨group, other, found, same, agree⟩ | ⟨red, green, root, other, found, redHome, greenHome, fused⟩
  · obtain ⟨groupedOther, extended⟩ := grouped.sameForest same
    exact ⟨group, other, found, groupedOther, extended,
      gathered_of_sameForest grouped.wellformed same agree⟩
  · obtain ⟨redNetwork, redAttached, redAt⟩ := exists_homeAt_iff.mp ⟨.red, redHome⟩
    obtain ⟨greenNetwork, greenAttached, greenAt⟩ := exists_homeAt_iff.mp ⟨.green, greenHome⟩
    obtain ⟨groupedOther, extended⟩ := grouped.fused equivalence fused (by
      intro one two oneAt twoAt
      have toRed := grouped.linked one redNetwork red oneAt redAt
      have across := linked redNetwork greenNetwork redAttached greenAttached
        (by rw [redAt]; rfl) (by rw [greenAt]; rfl)
      have fromGreen := grouped.linked greenNetwork two green greenAt twoAt
      exact equivalence.trans (equivalence.trans toRed across) fromGreen)
    exact ⟨some root, other, found, groupedOther, extended,
      gathered_of_fused redHome greenHome fused⟩

/-- One network of an endpoint joins a group whose networks are linked with those of the endpoint. -/
theorem Grouped.addNetwork
    (grouped : Grouped board Linked Belongs collection)
    (equivalence : Equivalence Linked)
    {point : Endpoint}
    (linked : ∀ first second, board.Attached point first → board.Attached point second →
      Linked first second)
    {id : Nat}
    (inRange : id < collection.slots.size)
    (welcome : ∀ network member, board.Attached point network →
      collection.home member = some (collection.root id) → Linked network member)
    (color : Color) :
    ∃ root other,
      collection.addNetwork id (board.network? color point) = (root, other) ∧
        Grouped board Linked Belongs other ∧ Extends collection other ∧
        root < other.slots.size ∧ other.root root = other.root id ∧
        (∀ network, board.network? color point = some network →
          other.home network = some (other.root root)) ∧
        ∀ network member, board.Attached point network →
          other.home member = some (other.root root) → Linked network member := by
  have wellformed := grouped.wellformed
  cases isNetwork : board.network? color point with
  | none =>
      obtain ⟨other, found, same⟩ := wellformed.rooted.find_eq id
      obtain ⟨groupedOther, extended⟩ := grouped.sameForest same
      have rootEq := same.root_eq wellformed.rooted
      refine ⟨collection.root id, other, found, groupedOther, extended,
        same.size_eq ▸ wellformed.root_lt inRange, ?_, nofun, ?_⟩
      · rw [rootEq, rootEq, wellformed.rooted.root_root]
      · intro network member attached atHome
        rw [rootEq, wellformed.rooted.root_root, same.home_eq wellformed.rooted] at atHome
        exact welcome network member attached atHome
  | some network =>
      have attached : board.Attached point network := ⟨color, isNetwork⟩
      have settled {other : Collection} {root : Nat}
          (groupedOther : Grouped board Linked Belongs other)
          (atHome : other.home network = some (other.root root)) :
          (∀ asked, some network = some asked → other.home asked = some (other.root root)) ∧
            ∀ asked member, board.Attached point asked →
              other.home member = some (other.root root) → Linked asked member := by
        constructor
        · rintro _ ⟨⟩
          exact atHome
        · intro asked member askedAttached memberHome
          exact equivalence.trans (linked asked network askedAttached attached)
            (groupedOther.linked network member _ atHome memberHome)
      cases atHome : collection.home network with
      | some current =>
          obtain ⟨root, other, added, fused⟩ := wellformed.addNetwork_of_home inRange atHome
          obtain ⟨groupedOther, extended⟩ := grouped.fused equivalence fused (by
            intro one two oneAt twoAt
            exact equivalence.trans (grouped.linked one network current oneAt atHome)
              (welcome network two attached twoAt))
          have homeAfter : other.home network = some (other.root root) := by
            rw [fused.home_eq, atHome, fused.root_root, Option.map_some, if_pos (.inl rfl)]
          refine ⟨root, other, added, groupedOther, extended,
            fused.root_lt (wellformed.home_lt atHome) (wellformed.root_lt inRange), ?_,
            settled groupedOther homeAfter⟩
          rw [fused.root_root, fused.root_eq, if_pos (.inr rfl)]
      | none =>
          obtain ⟨other, added, wellformedOther, sizeEq, rootEq, homeEq, hasPointIff⟩ :=
            wellformed.addNetwork_of_homeless inRange atHome
          obtain ⟨groupedOther, extended⟩ := grouped.own equivalence atHome
            (fun neighbor neighborAt => welcome network neighbor attached neighborAt)
            wellformedOther sizeEq rootEq homeEq hasPointIff
          have rootRoot : other.root (collection.root id) = collection.root id := by
            rw [rootEq, wellformed.rooted.root_root]
          have homeAfter : other.home network = some (other.root (collection.root id)) := by
            rw [homeEq, if_pos rfl, rootRoot]
          refine ⟨collection.root id, other, added, groupedOther, extended,
            sizeEq ▸ wellformed.root_lt inRange, ?_, settled groupedOther homeAfter⟩
          rw [rootRoot, rootEq]

/-- All networks of an endpoint join a group. -/
theorem Grouped.addNetworks
    (grouped : Grouped board Linked Belongs collection)
    (equivalence : Equivalence Linked)
    {point : Endpoint}
    (linked : ∀ first second, board.Attached point first → board.Attached point second →
      Linked first second)
    {id : Nat}
    (inRange : id < collection.slots.size)
    (welcome : ∀ network member, board.Attached point network →
      collection.home member = some (collection.root id) → Linked network member) :
    ∃ root other,
      collection.addNetworks board id point = (root, other) ∧
        Grouped board Linked Belongs other ∧ Extends collection other ∧
        root < other.slots.size ∧ other.root root = other.root id ∧
        ∀ network, board.Attached point network → other.home network = some (other.root root) := by
  obtain ⟨joined, between, redAdded, redGrouped, redExtended, redInRange, redRoot, redHome,
    redWelcome⟩ := grouped.addNetwork equivalence linked inRange welcome .red
  obtain ⟨root, other, added, groupedOther, extended, rootInRange, sameRoot, greenHome, -⟩ :=
    redGrouped.addNetwork equivalence linked redInRange redWelcome .green
  refine ⟨root, other, ?_, groupedOther, redExtended.trans extended, rootInRange, ?_, ?_⟩
  · simp only [Collection.addNetworks, Color.all, List.foldl_cons, List.foldl_nil, redAdded, added]
  · rw [sameRoot, extended.root_eq _ _ redRoot]
  · rintro network ⟨color, isNetwork⟩
    cases color with
    | red =>
        rw [extended.home_eq network _ (redHome network isNetwork), sameRoot,
          extended.root_eq _ _ (redGrouped.wellformed.rooted.root_root joined)]
    | green =>
        exact greenHome network isNetwork

/-- Adding a network gives a home at most to this network. -/
theorem Wellformed.addNetwork_owned
    (wellformed : collection.Wellformed)
    {id : Nat}
    (inRange : id < collection.slots.size)
    (network : Option Nat) :
    ∃ root other,
      collection.addNetwork id network = (root, other) ∧ other.Wellformed ∧
        root < other.slots.size ∧ other.slots.size = collection.slots.size ∧
        ∀ asked, (other.home asked).isSome → (collection.home asked).isSome ∨
          network = some asked := by
  cases network with
  | none =>
      obtain ⟨next, found, same⟩ := wellformed.rooted.find_eq id
      refine ⟨_, next, found, same.wellformed wellformed,
        same.size_eq ▸ wellformed.root_lt inRange, same.size_eq, ?_⟩
      intro asked owned
      rw [same.home_eq wellformed.rooted] at owned
      exact .inl owned
  | some network =>
      cases atHome : collection.home network with
      | none =>
          obtain ⟨next, added, wellformedNext, sizeEq, -, homeEq, -⟩ :=
            wellformed.addNetwork_of_homeless inRange atHome
          refine ⟨_, next, added, wellformedNext, sizeEq ▸ wellformed.root_lt inRange, sizeEq, ?_⟩
          intro asked owned
          rw [homeEq] at owned
          split at owned
          · rename_i isNetwork
            exact .inr (congrArg some isNetwork.symm)
          · exact .inl owned
      | some current =>
          obtain ⟨root, next, added, fused⟩ := wellformed.addNetwork_of_home inRange atHome
          refine ⟨root, next, added, fused.wellformed,
            fused.root_lt (wellformed.home_lt atHome) (wellformed.root_lt inRange),
            fused.size_eq, ?_⟩
          intro asked owned
          rw [fused.home_eq, Option.isSome_map] at owned
          exact .inl owned

/-- Adding the networks of an endpoint gives a home at most to these networks. -/
theorem Wellformed.addNetworks_owned
    (wellformed : collection.Wellformed)
    (board : Board)
    {id : Nat}
    (inRange : id < collection.slots.size)
    (point : Endpoint) :
    (collection.addNetworks board id point).2.slots.size = collection.slots.size ∧
      ∀ network, ((collection.addNetworks board id point).2.home network).isSome →
        (collection.home network).isSome ∨ board.Attached point network := by
  obtain ⟨joined, between, redAdded, betweenWellformed, joinedInRange, betweenSize, redOwned⟩ :=
    wellformed.addNetwork_owned inRange (board.network? .red point)
  obtain ⟨root, next, greenAdded, -, -, sizeEq, greenOwned⟩ :=
    betweenWellformed.addNetwork_owned joinedInRange (board.network? .green point)
  have added : collection.addNetworks board id point = (root, next) := by
    simp only [addNetworks, Color.all, List.foldl_cons, List.foldl_nil, redAdded, greenAdded]
  rw [added]
  refine ⟨sizeEq.trans betweenSize, ?_⟩
  intro network owned
  rcases greenOwned network owned with before | isGreen
  · rcases redOwned network before with before | isRed
    · exact .inl before
    · exact .inr ⟨.red, isRed⟩
  · exact .inr ⟨.green, isGreen⟩

/-- A group is the one at an endpoint: it has one of the networks of the endpoint, if there are any,
and none of them is in another group. -/
structure IsAt (board : Board) (point : Endpoint) (collection : Collection) (id : Nat) : Prop where
  inRange : id < collection.slots.size
  anchored : board.isConnected point →
    ∃ network, board.Attached point network ∧ collection.home network = some (collection.root id)
  only : ∀ network home, board.Attached point network → collection.home network = some home →
    home = collection.root id

/-- What making sure that there is a group at an endpoint gives: if none of the networks of the
endpoint has a home, all of them get one. -/
structure Ensured
    (board : Board)
    (point : Endpoint)
    (collection other : Collection)
    (root : Nat) :
    Prop where
  isAt : IsAt board point other root
  owned : ∀ network, (other.home network).isSome → (collection.home network).isSome ∨
    (board.Attached point network ∧
      ∀ asked, board.Attached point asked → collection.home asked = none)
  housed : (∀ asked, board.Attached point asked → collection.home asked = none) →
    ∀ network, board.Attached point network → (other.home network).isSome
  created : ∀ id < other.slots.size, collection.slots.size ≤ id → other.root id = other.root root

/-- The group found at an endpoint is taken as it is. -/
theorem Gathered.ensured
    {point : Endpoint}
    {root : Nat}
    (gathers : Gathered board point collection other (some root))
    (wellformed : other.Wellformed) :
    Ensured board point collection other root := by
  obtain ⟨⟨network, attached, atHome⟩, only⟩ := gathers.found root rfl
  have rootRoot := wellformed.rooted.root_home atHome
  refine ⟨⟨?_, ?_, ?_⟩, ?_, ?_, ?_⟩
  · exact wellformed.home_lt atHome
  · intro _
    exact ⟨network, attached, by rw [rootRoot, atHome]⟩
  · intro asked home askedAttached askedHome
    rw [rootRoot]
    exact only asked home askedAttached askedHome
  · intro asked owned
    exact .inl ((gathers.owned_iff asked).mp owned)
  · intro homeless
    have owned := (gathers.owned_iff network).mp (by rw [atHome]; rfl)
    rw [homeless network attached] at owned
    cases owned
  · intro id inRange new
    rw [gathers.size_eq] at inRange
    omega

theorem Grouped.ensurePointGroup
    (grouped : Grouped board Linked Belongs collection)
    (equivalence : Equivalence Linked)
    {point : Endpoint}
    (linked : ∀ first second, board.Attached point first → board.Attached point second →
      (collection.home first).isSome → (collection.home second).isSome → Linked first second)
    (unowned : (∀ network, board.Attached point network → collection.home network = none) →
      ∀ first second, board.Attached point first → board.Attached point second →
        Linked first second) :
    ∃ root other,
      collection.ensurePointGroup board point = (root, other) ∧
        Grouped board Linked Belongs other ∧ Extends collection other ∧
          Ensured board point collection other root := by
  obtain ⟨group, between, gathered, groupedBetween, extended, gathers⟩ :=
    grouped.pointGroup equivalence linked
  simp only [Collection.ensurePointGroup, gathered]
  cases group with
  | some root =>
      exact ⟨root, between, rfl, groupedBetween, extended,
        gathers.ensured groupedBetween.wellformed⟩
  | none =>
      have missing := gathers.missing rfl
      obtain ⟨wellformedNew, sizeEq, rootEq, homeEq, hasPointIff⟩ :=
        groupedBetween.wellformed.newGroup
      obtain ⟨groupedNew, extendedNew⟩ := groupedBetween.of_eq wellformedNew
        (by omega) rootEq homeEq hasPointIff
      have newInRange : between.slots.size < between.newGroup.2.slots.size := by omega
      have newRoot : between.newGroup.2.root between.slots.size = between.slots.size := by
        rw [rootEq]
        exact root_of_isRoot (by simp [parent])
      obtain ⟨root, other, added, groupedOther, extendedOther, rootInRange, sameRoot, homes⟩ :=
        groupedNew.addNetworks equivalence (unowned missing) newInRange (by
          intro network member _ atHome
          rw [newRoot, homeEq] at atHome
          exact absurd (groupedBetween.wellformed.home_lt atHome) (Nat.lt_irrefl _))
      obtain ⟨sizeAdded, ownedAdded⟩ :=
        wellformedNew.addNetworks_owned board newInRange point
      refine ⟨root, other, added, groupedOther, (extended.trans extendedNew).trans extendedOther,
        ⟨rootInRange, ?_, ?_⟩, ?_, ?_, ?_⟩
      · intro connected
        obtain ⟨network, attached⟩ := Board.isConnected_iff.mp connected
        exact ⟨network, attached, homes network attached⟩
      · intro network home attached atHome
        exact Option.some.inj (atHome.symm.trans (homes network attached))
      · intro network owned
        rcases ownedAdded network (added ▸ owned) with before | attached
        · rw [homeEq] at before
          exact .inl ((gathers.owned_iff network).mp before)
        · exact .inr ⟨attached, missing⟩
      · intro _ network attached
        rw [homes network attached]
        rfl
      · intro id inRange new
        have isNew : id = between.slots.size := by
          have sizeOther : other.slots.size = between.newGroup.2.slots.size := by
            rw [← sizeAdded, added]
          have sizeBetween := gathers.size_eq
          omega
        rw [isNew, sameRoot]

end Collection

end CircuitNetwork
