import CircuitNetwork.Signal.Map
import Mathlib.Tactic.Common

namespace CircuitNetwork

/-!
# Maps keyed by signals, as finite functions

Signals are totally ordered.  A map that is built from the empty one stays in
that order, so it is determined by what is found in it.
-/

namespace Signal

/-- No signal comes before itself. -/
theorem not_before_self
    (signal : Signal) :
    signal.before signal = false := by
  simp [before]

/-- The order of signals is transitive. -/
theorem before_trans
    {first second third : Signal}
    (firstBefore : first.before second = true)
    (secondBefore : second.before third = true) :
    first.before third = true := by
  simp only [before, Bool.or_eq_true, Bool.and_eq_true, decide_eq_true_eq] at *
  grind

/-- Of two different signals, one comes before the other. -/
theorem before_of_not_before
    {first second : Signal}
    (different : first ≠ second)
    (notBefore : ¬first.before second = true) :
    second.before first = true := by
  cases first
  cases second
  simp only [before, Bool.or_eq_true, Bool.and_eq_true, decide_eq_true_eq,
    ne_eq, Signal.mk.injEq] at *
  grind

end Signal

namespace SignalMap

variable {α : Type}

/-- Looking up in a list of entries asks its first entry first. -/
theorem lookup_entry_cons
    (key asked : Signal)
    (value : α)
    (rest : List (Signal × α)) :
    ((key, value) :: rest).lookup asked =
      if asked = key then some value else rest.lookup asked := by
  by_cases same : asked = key
  · simp [same]
  · have unequal : (asked == key) = false := beq_eq_false_iff_ne.mpr same
    simp [List.lookup_cons, unequal, same]

@[simp] theorem find?_empty
    (signal : Signal) :
    (empty : SignalMap α).find? signal = none := by
  rfl

/-- An inserted entry is found at its own signal and hides nothing else. -/
theorem lookup_insertEntry
    (signal asked : Signal)
    (value : α)
    (entries : List (Signal × α)) :
    (insertEntry signal value entries).lookup asked =
      if asked = signal then some value else entries.lookup asked := by
  induction entries with
  | nil =>
      simp [insertEntry, lookup_entry_cons]
  | cons entry rest inductionHypothesis =>
      obtain ⟨key, old⟩ := entry
      simp only [insertEntry]
      split
      · rw [lookup_entry_cons]
      · split
        · rename_i sameKey
          subst sameKey
          simp only [lookup_entry_cons]
          split <;> rfl
        · rename_i differentKey
          simp only [lookup_entry_cons, inductionHypothesis]
          grind

theorem find?_insert
    (map : SignalMap α)
    (signal asked : Signal)
    (value : α) :
    (map.insert signal value).find? asked =
      if asked = signal then some value else map.find? asked :=
  lookup_insertEntry signal asked value map.entries

theorem mem_keys_iff
    (map : SignalMap α)
    (signal : Signal) :
    signal ∈ map.keys ↔ map.contains signal = true := by
  rw [contains, find?, List.lookup_isSome_iff]
  simp [keys]

theorem mem_keys_insert
    (map : SignalMap α)
    (signal : Signal)
    (value : α)
    (asked : Signal) :
    asked ∈ (map.insert signal value).keys ↔ asked = signal ∨ asked ∈ map.keys := by
  rw [mem_keys_iff, mem_keys_iff, contains, contains, find?_insert]
  split <;> simp [*]

theorem find?_erase
    (map : SignalMap α)
    (signal asked : Signal) :
    (map.erase signal).find? asked =
      if asked = signal then none else map.find? asked := by
  obtain ⟨entries⟩ := map
  simp only [find?, erase]
  induction entries with
  | nil =>
      simp
  | cons entry rest inductionHypothesis =>
      obtain ⟨key, old⟩ := entry
      by_cases keyErased : key = signal
      · subst keyErased
        rw [List.filter_cons_of_neg (by simp), inductionHypothesis, lookup_entry_cons]
        split <;> rfl
      · rw [List.filter_cons_of_pos (by simp [keyErased])]
        simp only [lookup_entry_cons, inductionHypothesis]
        grind

/-- The entries stand in signal order. -/
def Ordered (map : SignalMap α) : Prop :=
  map.entries.Pairwise fun first second => first.1.before second.1 = true

theorem ordered_empty : (empty : SignalMap α).Ordered :=
  List.Pairwise.nil

/-- Inserting adds at most one entry. -/
theorem mem_insertEntry
    {signal : Signal}
    {value : α}
    {entry : Signal × α}
    {entries : List (Signal × α)}
    (member : entry ∈ insertEntry signal value entries) :
    entry = (signal, value) ∨ entry ∈ entries := by
  induction entries with
  | nil =>
      simpa [insertEntry] using member
  | cons head rest inductionHypothesis =>
      simp only [insertEntry] at member
      split at member
      · simpa using member
      · split at member
        · grind
        · grind

theorem ordered_insert
    {map : SignalMap α}
    (ordered : map.Ordered)
    (signal : Signal)
    (value : α) :
    (map.insert signal value).Ordered := by
  obtain ⟨entries⟩ := map
  simp only [Ordered, insert] at *
  induction entries with
  | nil =>
      simp [insertEntry]
  | cons head rest inductionHypothesis =>
      obtain ⟨key, old⟩ := head
      have headBefore := (List.pairwise_cons.mp ordered).1
      have restOrdered := (List.pairwise_cons.mp ordered).2
      simp only [insertEntry]
      split
      · rename_i signalBefore
        refine List.pairwise_cons.mpr ⟨?_, ordered⟩
        intro entry member
        rcases List.mem_cons.mp member with atHead | inRest
        · subst atHead
          exact signalBefore
        · exact Signal.before_trans signalBefore (headBefore entry inRest)
      · rename_i notBefore
        split
        · rename_i sameKey
          subst sameKey
          exact List.pairwise_cons.mpr ⟨headBefore, restOrdered⟩
        · rename_i differentKey
          refine List.pairwise_cons.mpr ⟨?_, inductionHypothesis restOrdered⟩
          intro entry member
          rcases mem_insertEntry member with inserted | inRest
          · subst inserted
            exact Signal.before_of_not_before differentKey notBefore
          · exact headBefore entry inRest

theorem ordered_erase
    {map : SignalMap α}
    (ordered : map.Ordered)
    (signal : Signal) :
    (map.erase signal).Ordered :=
  List.Pairwise.filter _ ordered

/-- In an ordered list of entries, what follows an entry is not found at signals before it. -/
theorem lookup_eq_none_of_before
    {signal : Signal}
    {entries : List (Signal × α)}
    (allAfter : ∀ entry ∈ entries, signal.before entry.1 = true) :
    entries.lookup signal = none := by
  rw [List.lookup_eq_none_iff]
  intro entry member
  apply bne_iff_ne.mpr
  intro same
  have after := allAfter entry member
  rw [← same, Signal.not_before_self] at after
  exact Bool.noConfusion after

end SignalMap

end CircuitNetwork
