import CircuitNetwork.Groups.Collection
import Mathlib.Data.List.Nodup
import Mathlib.Data.List.Perm.Subperm
import Mathlib.Tactic.Common

namespace CircuitNetwork.Collection

/-!
# Roots of a collection

Every identity leads to a root through a finite chain of parents. Looking an
identity up finds its root and keeps all roots, although it changes parents on
the way.
-/

variable {collection : Collection}

/-! ## Slots -/

/-- A change to one slot leaves the others. -/
theorem getElem?_modifySlot
    (collection : Collection)
    (id : Nat)
    (change : Slot → Slot)
    (asked : Nat) :
    (collection.modifySlot id change).slots[asked]? =
      if asked = id then collection.slots[id]?.map change else collection.slots[asked]? := by
  rw [modifySlot, Array.getElem?_modify]
  by_cases same : asked = id
  · subst same
    simp
  · simp [same, Ne.symm same]

@[simp] theorem size_modifySlot
    (collection : Collection)
    (id : Nat)
    (change : Slot → Slot) :
    (collection.modifySlot id change).slots.size = collection.slots.size := by
  simp [modifySlot]

theorem parent_modifySlot_of_ne
    (collection : Collection)
    {id asked : Nat}
    (different : asked ≠ id)
    (change : Slot → Slot) :
    (collection.modifySlot id change).parent asked = collection.parent asked := by
  rw [parent, getElem?_modifySlot, if_neg different, parent]

theorem parent_modifySlot_self
    (collection : Collection)
    {id : Nat}
    (inRange : id < collection.slots.size)
    (change : Slot → Slot) :
    (collection.modifySlot id change).parent id = (change collection.slots[id]).parent := by
  rw [parent, getElem?_modifySlot, if_pos rfl, Array.getElem?_eq_getElem inRange]
  rfl

/-- A slot below another one is there. -/
theorem lt_size_of_isChild
    {id : Nat}
    (isChild : collection.parent id ≠ id) :
    id < collection.slots.size := by
  by_contra outside
  apply isChild
  simp [parent, Nat.not_lt.mp outside]

/-! ## Chains of parents -/

/-- An identity leads to a root in a number of steps. -/
inductive Leads (collection : Collection) : Nat → Nat → Nat → Prop where
  | root {id : Nat}
      (isRoot : collection.parent id = id) :
      Leads collection 0 id id
  | step {id steps root : Nat}
      (isChild : collection.parent id ≠ id)
      (leads : Leads collection steps (collection.parent id) root) :
      Leads collection (steps + 1) id root

/-- A path ends at a root. -/
theorem Leads.isRoot
    {steps id root : Nat}
    (leads : collection.Leads steps id root) :
    collection.parent root = root := by
  induction leads with
  | root isRoot =>
      exact isRoot
  | step _ _ inductionHypothesis =>
      exact inductionHypothesis

/-- The root and the number of steps are determined. -/
theorem Leads.unique
    {steps otherSteps id root other : Nat}
    (leads : collection.Leads steps id root)
    (otherLeads : collection.Leads otherSteps id other) :
    steps = otherSteps ∧ root = other := by
  induction leads generalizing otherSteps with
  | root isRoot =>
      cases otherLeads with
      | root _ =>
          exact ⟨rfl, rfl⟩
      | step isChild _ =>
          exact absurd isRoot isChild
  | step isChild _ inductionHypothesis =>
      cases otherLeads with
      | root isRoot =>
          exact absurd isRoot isChild
      | step _ otherRest =>
          obtain ⟨sameSteps, sameRoot⟩ := inductionHypothesis otherRest
          exact ⟨congrArg (· + 1) sameSteps, sameRoot⟩

/-- The identities on the way to a root are distinct. -/
theorem Leads.exists_chain
    {steps id root : Nat}
    (leads : collection.Leads steps id root) :
    ∃ chain : List Nat,
      chain.Nodup ∧ chain.length = steps ∧
        ∀ member ∈ chain, member < collection.slots.size ∧
          ∃ rest, rest ≤ steps ∧ collection.Leads rest member root := by
  induction leads with
  | root isRoot =>
      exact ⟨[], List.nodup_nil, rfl, by simp⟩
  | @step id steps root isChild leads inductionHypothesis =>
      obtain ⟨chain, distinct, length, inside⟩ := inductionHypothesis
      have fresh : id ∉ chain := by
        intro member
        obtain ⟨-, rest, shorter, restLeads⟩ := inside id member
        have sameSteps := (restLeads.unique (.step isChild leads)).1
        omega
      refine ⟨id :: chain, List.nodup_cons.mpr ⟨fresh, distinct⟩, by simp [length], ?_⟩
      intro member listed
      rcases List.mem_cons.mp listed with rfl | listed
      · exact ⟨lt_size_of_isChild isChild, _, Nat.le_refl _, .step isChild leads⟩
      · obtain ⟨inRange, rest, shorter, restLeads⟩ := inside member listed
        exact ⟨inRange, rest, by omega, restLeads⟩

/-- No chain is longer than the number of identities. -/
theorem Leads.le_size
    {steps id root : Nat}
    (leads : collection.Leads steps id root) :
    steps ≤ collection.slots.size := by
  obtain ⟨chain, distinct, rfl, inside⟩ := leads.exists_chain
  have listed : chain ⊆ List.range collection.slots.size := by
    intro member isMember
    exact List.mem_range.mpr (inside member isMember).1
  simpa using (List.subperm_of_subset distinct listed).length_le

/-! ## Looking up -/

/-- Every identity leads to a root. -/
def Rooted (collection : Collection) : Prop :=
  ∀ id, ∃ steps root, collection.Leads steps id root

/-- What a slot holds apart from its parent. -/
def detached (slot : Slot) : Slot :=
  { slot with parent := 0 }

/-- Collections that differ only in the ways to the roots, which do not get longer. -/
structure SameForest (collection other : Collection) : Prop where
  signal_eq : other.signal = collection.signal
  owners_eq : other.owners = collection.owners
  size_eq : other.slots.size = collection.slots.size
  slot_eq : ∀ id : Nat, other.slots[id]?.map detached = collection.slots[id]?.map detached
  leads : ∀ steps id root, collection.Leads steps id root →
    ∃ fewer, fewer ≤ steps ∧ other.Leads fewer id root

namespace SameForest

variable {other : Collection}

theorem refl
    (collection : Collection) :
    SameForest collection collection where
  signal_eq := rfl
  owners_eq := rfl
  size_eq := rfl
  slot_eq := fun _ => rfl
  leads := fun steps _ _ leads => ⟨steps, Nat.le_refl steps, leads⟩

theorem trans
    {last : Collection}
    (first : SameForest collection other)
    (second : SameForest other last) :
    SameForest collection last where
  signal_eq := second.signal_eq.trans first.signal_eq
  owners_eq := second.owners_eq.trans first.owners_eq
  size_eq := second.size_eq.trans first.size_eq
  slot_eq := fun id => (second.slot_eq id).trans (first.slot_eq id)
  leads := by
    intro steps id root leads
    obtain ⟨fewer, shorter, otherLeads⟩ := first.leads steps id root leads
    obtain ⟨least, shortest, lastLeads⟩ := second.leads fewer id root otherLeads
    exact ⟨least, Nat.le_trans shortest shorter, lastLeads⟩

/-- Slots of the same forest reach roots as before. -/
theorem rooted
    (same : SameForest collection other)
    (rooted : collection.Rooted) :
    other.Rooted := by
  intro id
  obtain ⟨steps, root, leads⟩ := rooted id
  obtain ⟨fewer, -, otherLeads⟩ := same.leads steps id root leads
  exact ⟨fewer, root, otherLeads⟩

/-- What does not depend on the parent of a slot is the same. -/
theorem map_slot_eq
    {α : Type}
    (same : SameForest collection other)
    (read : Slot → α)
    (ignores : ∀ slot, read (detached slot) = read slot)
    (id : Nat) :
    other.slots[id]?.map read = collection.slots[id]?.map read := by
  have slotEq := congrArg (Option.map read) (same.slot_eq id)
  simpa only [Option.map_map, Function.comp_def, ignores] using slotEq

theorem groupAt_eq
    (same : SameForest collection other)
    (id : Nat) :
    other.groupAt id = collection.groupAt id := by
  rw [groupAt, same.map_slot_eq (·.group) (fun _ => rfl), groupAt]

theorem isRenamed_eq
    (same : SameForest collection other)
    (id : Nat) :
    other.isRenamed id = collection.isRenamed id := by
  rw [isRenamed, same.map_slot_eq (·.renamed) (fun _ => rfl), isRenamed]

end SameForest

/-- Making an identity a child of its grandparent keeps all roots. -/
theorem sameForest_skip
    {id : Nat}
    (isChild : collection.parent id ≠ id) :
    SameForest collection
      (collection.modifySlot id
        ({ · with parent := collection.parent (collection.parent id) })) := by
  have inRange := lt_size_of_isChild isChild
  refine ⟨rfl, rfl, size_modifySlot .., ?_, ?_⟩
  · intro asked
    rw [getElem?_modifySlot]
    split
    · rename_i same
      subst same
      rw [Option.map_map]
      rfl
    · rfl
  · intro steps asked root leads
    have parentSelf := collection.parent_modifySlot_self inRange
      ({ · with parent := collection.parent (collection.parent id) })
    -- The ways get shorter, so the induction is on their length and not along one of them.
    induction steps using Nat.strongRecOn generalizing asked with
    | ind steps inductionHypothesis =>
        by_cases same : asked = id
        · subst same
          cases leads with
          | root isRoot =>
              exact absurd isRoot isChild
          | step _ parentLeads =>
              cases parentLeads with
              | root isRoot =>
                  have skipped : (collection.modifySlot asked
                      ({ · with parent := collection.parent (collection.parent asked) })).parent
                        asked = collection.parent asked := parentSelf.trans isRoot
                  refine ⟨1, Nat.le_refl 1, .step (by rwa [skipped]) ?_⟩
                  rw [skipped]
                  exact .root ((collection.parent_modifySlot_of_ne isChild _).trans isRoot)
              | @step _ steps _ parentChild grandparentLeads =>
                  obtain ⟨fewer, shorter, rest⟩ :=
                    inductionHypothesis steps (by omega) _ grandparentLeads
                  have apart : collection.parent (collection.parent asked) ≠ asked := by
                    intro back
                    rw [back] at grandparentLeads
                    have sameSteps := (grandparentLeads.unique
                      (.step isChild (.step parentChild (back ▸ grandparentLeads)))).1
                    omega
                  refine ⟨fewer + 1, by omega, .step (parentSelf ▸ apart) ?_⟩
                  rwa [parentSelf]
        · have parentOther := collection.parent_modifySlot_of_ne same
            ({ · with parent := collection.parent (collection.parent id) })
          cases leads with
          | root isRoot =>
              exact ⟨0, Nat.le_refl 0, .root (parentOther.trans isRoot)⟩
          | @step _ steps _ otherChild parentLeads =>
              obtain ⟨fewer, shorter, rest⟩ :=
                inductionHypothesis steps (Nat.lt_succ_self steps) _ parentLeads
              refine ⟨fewer + 1, by omega, .step (by rwa [parentOther]) ?_⟩
              rwa [parentOther]

/-- Walking up finds the root and keeps all roots. -/
theorem findFrom_eq
    {limit steps id root : Nat}
    (leads : collection.Leads steps id root)
    (enough : steps ≤ limit) :
    ∃ other, findFrom limit id collection = (root, other) ∧ SameForest collection other := by
  induction limit generalizing collection steps id with
  | zero =>
      obtain rfl : steps = 0 := by omega
      cases leads with
      | root _ =>
          exact ⟨collection, rfl, .refl collection⟩
  | succ limit inductionHypothesis =>
      cases leads with
      | root isRoot =>
          exact ⟨collection, by rw [findFrom, if_pos isRoot], .refl collection⟩
      | @step _ steps _ isChild parentLeads =>
          have skip := sameForest_skip isChild
          obtain ⟨rest, restSteps, grandparentLeads⟩ :
              ∃ rest ≤ steps, collection.Leads rest
                (collection.parent (collection.parent id)) root := by
            cases parentLeads with
            | root isRoot =>
                exact ⟨0, Nat.le_refl 0, by rw [isRoot]; exact .root isRoot⟩
            | @step _ rest _ _ grandparentLeads =>
                exact ⟨rest, Nat.le_succ rest, grandparentLeads⟩
          obtain ⟨fewer, shorter, skippedLeads⟩ := skip.leads _ _ _ grandparentLeads
          obtain ⟨other, found, same⟩ := inductionHypothesis skippedLeads (by omega)
          exact ⟨other, by rw [findFrom, if_neg isChild, found], skip.trans same⟩

/-- The root of an identity. -/
def root (collection : Collection) (id : Nat) : Nat :=
  (collection.find id).1

/-- Finding gives the root and shortens paths, but the forest stays the same. -/
theorem Rooted.find_eq
    (rooted : collection.Rooted)
    (id : Nat) :
    ∃ other, collection.find id = (collection.root id, other) ∧ SameForest collection other := by
  obtain ⟨steps, root, leads⟩ := rooted id
  obtain ⟨other, found, same⟩ := findFrom_eq leads leads.le_size
  exact ⟨other, by rw [Collection.root, find, found], same⟩

theorem Leads.root_eq
    {steps id root : Nat}
    (leads : collection.Leads steps id root) :
    collection.root id = root := by
  obtain ⟨other, found, -⟩ := findFrom_eq leads leads.le_size
  rw [Collection.root, find, found]

/-- Every slot has a path to its root. -/
theorem Rooted.leads_root
    (rooted : collection.Rooted)
    (id : Nat) :
    ∃ steps, collection.Leads steps id (collection.root id) := by
  obtain ⟨steps, root, leads⟩ := rooted id
  exact ⟨steps, by rwa [leads.root_eq]⟩

theorem Rooted.parent_root
    (rooted : collection.Rooted)
    (id : Nat) :
    collection.parent (collection.root id) = collection.root id := by
  obtain ⟨steps, leads⟩ := rooted.leads_root id
  exact leads.isRoot

/-- A slot that is its own parent is its own root. -/
theorem root_of_isRoot
    {id : Nat}
    (isRoot : collection.parent id = id) :
    collection.root id = id :=
  (Leads.root isRoot).root_eq

theorem Rooted.root_root
    (rooted : collection.Rooted)
    (id : Nat) :
    collection.root (collection.root id) = collection.root id :=
  root_of_isRoot (rooted.parent_root id)

theorem Rooted.parent_eq_self_iff
    (rooted : collection.Rooted)
    {id : Nat} :
    collection.parent id = id ↔ collection.root id = id :=
  ⟨root_of_isRoot, fun isRoot => isRoot ▸ rooted.parent_root id⟩

/-- Shortened paths lead to the same roots. -/
theorem SameForest.root_eq
    {other : Collection}
    (same : SameForest collection other)
    (rooted : collection.Rooted)
    (id : Nat) :
    other.root id = collection.root id := by
  obtain ⟨steps, leads⟩ := rooted.leads_root id
  obtain ⟨fewer, -, otherLeads⟩ := same.leads _ _ _ leads
  exact otherLeads.root_eq

end CircuitNetwork.Collection
