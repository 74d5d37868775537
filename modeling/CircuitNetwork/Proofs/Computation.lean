import CircuitNetwork.Failure

namespace CircuitNetwork

/-!
# Computations that may fail

A computation of two parts succeeds if the first part does and then the second.
What holds after a computation, whether it succeeds or fails, is shown part by
part.
-/

variable {ε σ α β : Type}

theorem except_bind_eq_ok
    {first : Except ε α}
    {next : α → Except ε β}
    {result : β} :
    (first >>= next) = .ok result ↔
      ∃ value, first = .ok value ∧ next value = .ok result := by
  cases first <;> simp [bind, Except.bind]

/-- A check of all items succeeds only if each of them passes. -/
theorem except_forM_eq_ok
    {each : α → Except ε PUnit}
    {items : List α}
    (passed : items.forM each = .ok ()) :
    ∀ item ∈ items, each item = .ok () := by
  induction items with
  | nil =>
      simp
  | cons item rest inductionHypothesis =>
      obtain ⟨_, first, passedRest⟩ := except_bind_eq_ok.mp passed
      exact List.forall_mem_cons.mpr ⟨first, inductionHypothesis passedRest⟩

/-- A check of all items succeeds if each of them passes. -/
theorem except_forM_of_ok
    {each : α → Except ε PUnit}
    {items : List α}
    (passes : ∀ item ∈ items, each item = .ok ()) :
    items.forM each = .ok () := by
  induction items with
  | nil =>
      rfl
  | cons item rest inductionHypothesis =>
      obtain ⟨first, others⟩ := List.forall_mem_cons.mp passes
      exact except_bind_eq_ok.mpr ⟨(), first, inductionHypothesis others⟩

theorem bind_eq_ok
    {first : EStateM ε σ α}
    {next : α → EStateM ε σ β}
    {start final : σ}
    {result : β} :
    (first >>= next) start = .ok result final ↔
      ∃ value middle, first start = .ok value middle ∧ next value middle = .ok result final := by
  simp only [bind, EStateM.bind]
  cases first start <;> grind

theorem bind_of_ok
    {first : EStateM ε σ α}
    {next : α → EStateM ε σ β}
    {start middle : σ}
    {value : α}
    (succeeds : first start = .ok value middle) :
    (first >>= next) start = next value middle := by
  simp only [bind, EStateM.bind, succeeds]

theorem bind_of_error
    {first : EStateM ε σ α}
    {next : α → EStateM ε σ β}
    {start middle : σ}
    {failure : ε}
    (fails : first start = .error failure middle) :
    (first >>= next) start = .error failure middle := by
  simp only [bind, EStateM.bind, fails]

theorem forM_cons_of_ok
    {each : α → EStateM ε σ PUnit}
    {head : α}
    {start middle : σ}
    (succeeds : each head start = .ok () middle)
    (rest : List α) :
    (head :: rest).forM each start = rest.forM each middle :=
  bind_of_ok succeeds

theorem forM_append_of_ok
    {each : α → EStateM ε σ PUnit}
    {items : List α}
    {start middle : σ}
    (succeeds : items.forM each start = .ok () middle)
    (rest : List α) :
    (items ++ rest).forM each start = rest.forM each middle := by
  induction items generalizing start with
  | nil =>
      cases succeeds
      rfl
  | cons item others inductionHypothesis =>
      obtain ⟨_, between, first, second⟩ := bind_eq_ok.mp succeeds
      exact (forM_cons_of_ok first _).trans (inductionHypothesis second)

/-- Items that are treated alike give the same results. -/
theorem mapM_congr
    {m : Type → Type}
    [Monad m]
    [LawfulMonad m]
    {each other : α → m β}
    {items : List α}
    (same : ∀ item ∈ items, each item = other item) :
    items.mapM each = items.mapM other := by
  induction items with
  | nil =>
      rfl
  | cons item rest inductionHypothesis =>
      obtain ⟨first, others⟩ := List.forall_mem_cons.mp same
      rw [List.mapM_cons, List.mapM_cons, first, inductionHypothesis others]

/-- Items that all succeed give the list of their results. -/
theorem except_mapM_eq_ok
    {each : α → Except ε β}
    {value : α → β}
    {items : List α}
    (succeed : ∀ item ∈ items, each item = .ok (value item)) :
    items.mapM each = .ok (items.map value) :=
  (mapM_congr succeed).trans List.mapM_pure

/-- If items fail in one way only, and one of them does fail, that is how all of them together fail. -/
theorem except_mapM_eq_error
    {each : α → Except ε β}
    {failure : ε}
    {items : List α}
    (fails : ∃ item ∈ items, each item = .error failure)
    (outcomes : ∀ item ∈ items, each item = .error failure ∨ ∃ value, each item = .ok value) :
    items.mapM each = .error failure := by
  induction items with
  | nil =>
      simp at fails
  | cons item rest inductionHypothesis =>
      rw [List.mapM_cons]
      rcases outcomes item List.mem_cons_self with failed | ⟨value, succeeded⟩
      · rw [failed]
        rfl
      · have failsLater : ∃ other ∈ rest, each other = .error failure := by
          obtain ⟨other, member, failed⟩ := fails
          rcases List.mem_cons.mp member with rfl | later
          · rw [succeeded] at failed
            cases failed
          · exact ⟨other, later, failed⟩
        rw [succeeded, inductionHypothesis failsLater
          fun other member => outcomes other (List.mem_cons_of_mem _ member)]
        rfl

theorem length_of_mapM_eq_ok
    {each : α → EStateM ε σ β}
    {items : List α}
    {values : List β}
    {start final : σ}
    (ran : items.mapM each start = .ok values final) :
    values.length = items.length := by
  induction items generalizing start values with
  | nil =>
      cases ran
      rfl
  | cons item rest inductionHypothesis =>
      rw [List.mapM_cons] at ran
      obtain ⟨value, middle, -, ranRest⟩ := bind_eq_ok.mp ran
      obtain ⟨others, last, ranOthers, collected⟩ := bind_eq_ok.mp ranRest
      cases collected
      rw [List.length_cons, inductionHypothesis ranOthers, List.length_cons]

@[simp] theorem pure_run
    (value : α)
    (state : σ) :
    (pure value : EStateM ε σ α) state = .ok value state :=
  rfl

theorem get_run
    (state : σ) :
    (get : EStateM ε σ σ) state = .ok state state :=
  rfl

/-- What holds of the result of a computation, or of its failure, and of the state it leaves. -/
def Ensures
    (outcome : EStateM.Result ε σ α)
    (succeeded : α → σ → Prop)
    (failed : ε → σ → Prop) :
    Prop :=
  match outcome with
  | .ok value state => succeeded value state
  | .error failure state => failed failure state

namespace Ensures

variable {succeeded : α → σ → Prop} {failed : ε → σ → Prop}

instance decidable
    [∀ value state, Decidable (succeeded value state)]
    [∀ failure state, Decidable (failed failure state)] :
    (outcome : EStateM.Result ε σ α) → Decidable (Ensures outcome succeeded failed)
  | .ok value state => inferInstanceAs (Decidable (succeeded value state))
  | .error failure state => inferInstanceAs (Decidable (failed failure state))

theorem mono
    {outcome : EStateM.Result ε σ α}
    {weaker : α → σ → Prop}
    {weakerFailed : ε → σ → Prop}
    (ensured : Ensures outcome succeeded failed)
    (implied : ∀ value state, succeeded value state → weaker value state)
    (failureImplied : ∀ failure state, failed failure state → weakerFailed failure state) :
    Ensures outcome weaker weakerFailed := by
  cases outcome with
  | ok value state => exact implied value state ensured
  | error failure state => exact failureImplied failure state ensured

/-- What follows from success and from failure holds. -/
theorem elim
    {outcome : EStateM.Result ε σ α}
    {fact : Prop}
    (ensured : Ensures outcome succeeded failed)
    (implied : ∀ value state, succeeded value state → fact)
    (failureImplied : ∀ failure state, failed failure state → fact) :
    fact := by
  cases outcome with
  | ok value state => exact implied value state ensured
  | error failure state => exact failureImplied failure state ensured

/-- A computation that cannot fail has a result. -/
theorem exists_ok
    {outcome : EStateM.Result ε σ α}
    (ensured : Ensures outcome succeeded fun _ _ => False) :
    ∃ value state, outcome = .ok value state ∧ succeeded value state := by
  cases outcome with
  | ok value state => exact ⟨value, state, rfl, ensured⟩
  | error failure state => exact False.elim ensured

theorem and
    {outcome : EStateM.Result ε σ α}
    {alsoSucceeded : α → σ → Prop}
    {alsoFailed : ε → σ → Prop}
    (first : Ensures outcome succeeded failed)
    (second : Ensures outcome alsoSucceeded alsoFailed) :
    Ensures outcome
      (fun value state => succeeded value state ∧ alsoSucceeded value state)
      (fun failure state => failed failure state ∧ alsoFailed failure state) := by
  cases outcome with
  | ok value state => exact ⟨first, second⟩
  | error failure state => exact ⟨first, second⟩

theorem bind
    {first : EStateM ε σ α}
    {next : α → EStateM ε σ β}
    {start : σ}
    {succeeded : β → σ → Prop}
    (ensured :
      Ensures (first start) (fun value state => Ensures (next value state) succeeded failed) failed) :
    Ensures ((first >>= next) start) succeeded failed := by
  simp only [Bind.bind, EStateM.bind]
  cases result : first start with
  | ok value state =>
      rw [result] at ensured
      exact ensured
  | error failure state =>
      rw [result] at ensured
      exact ensured

/-- What each item keeps, whether it succeeds or fails, is kept by all of them. -/
theorem forM
    {each : α → EStateM ε σ PUnit}
    (invariant : σ → Prop)
    {items : List α}
    (step :
      ∀ item ∈ items, ∀ state, invariant state →
        Ensures (each item state) (fun _ later => invariant later) (fun _ later => invariant later))
    {start : σ}
    (holds : invariant start) :
    Ensures (items.forM each start)
      (fun _ later => invariant later) (fun _ later => invariant later) := by
  induction items generalizing start with
  | nil =>
      exact holds
  | cons item rest inductionHypothesis =>
      apply Ensures.bind
      refine (step item List.mem_cons_self start holds).mono ?_ (fun _ _ kept => kept)
      intro _ later kept
      exact inductionHypothesis (fun other member => step other (List.mem_cons_of_mem _ member)) kept

/-- Items that only look at the state are looked up one after another. -/
theorem mapM_of_reads
    {each : α → EStateM ε σ β}
    {fact : β → Prop}
    {start : σ}
    (reads :
      ∀ item,
        Ensures (each item start)
          (fun value later => later = start ∧ fact value) (fun _ later => later = start))
    (items : List α) :
    Ensures (items.mapM each start)
      (fun values later => later = start ∧ ∀ value ∈ values, fact value)
      (fun _ later => later = start) := by
  induction items with
  | nil =>
      exact ⟨rfl, by simp⟩
  | cons item rest inductionHypothesis =>
      rw [List.mapM_cons]
      apply Ensures.bind
      refine (reads item).mono ?_ (fun _ _ same => same)
      rintro value _ ⟨rfl, isFact⟩
      apply Ensures.bind
      refine inductionHypothesis.mono ?_ (fun _ _ same => same)
      rintro values _ ⟨rfl, areFacts⟩
      exact ⟨rfl, List.forall_mem_cons.mpr ⟨isFact, areFacts⟩⟩

end Ensures

end CircuitNetwork
