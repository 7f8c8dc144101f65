/-!
# Running operations

What the operations of a state do, as equations that rewrite a run from its first step on.
-/

namespace SectionStore

variable {ε σ α β : Type}

theorem run_get (s : σ) : (get : EStateM ε σ σ) s = .ok s s :=
  rfl

theorem run_modify (f : σ → σ) (s : σ) : (modify f : EStateM ε σ Unit) s = .ok () (f s) :=
  rfl

theorem run_bind (m : EStateM ε σ α) (f : α → EStateM ε σ β) (s : σ) :
    (m >>= f) s = match m s with
      | .ok a s' => f a s'
      | .error e s' => .error e s' :=
  rfl

/-- Two operations succeed one after the other where each of them does. -/
theorem run_bind_eq_ok_iff {m : EStateM ε σ α} {f : α → EStateM ε σ β} {s s' : σ} {b : β} :
    (m >>= f) s = .ok b s' ↔ ∃ a s₁, m s = .ok a s₁ ∧ f a s₁ = .ok b s' := by
  rw [run_bind]
  constructor
  · intro run
    split at run
    · rename_i a s₁ first
      exact ⟨a, s₁, first, run⟩
    · cases run
  · rintro ⟨a, s₁, first, second⟩
    rw [first]
    exact second

/-- The operation keeps a property of the state, whether it succeeds or fails. -/
def Keeping (P : σ → Prop) (op : EStateM ε σ α) : Prop :=
  ∀ s, P s → match op s with
    | .ok _ s' => P s'
    | .error _ s' => P s'

theorem Keeping.pure {P : σ → Prop} (a : α) : Keeping P (pure a : EStateM ε σ α) :=
  fun _ held => held

theorem Keeping.throw {P : σ → Prop} (e : ε) : Keeping P (throw e : EStateM ε σ α) :=
  fun _ held => held

theorem Keeping.bind {P : σ → Prop} {m : EStateM ε σ α} {f : α → EStateM ε σ β}
    (first : Keeping P m) (second : ∀ a, Keeping P (f a)) : Keeping P (m >>= f) := by
  intro s held
  have kept := first s held
  rw [run_bind]
  cases run : m s with
  | ok a s' =>
    rw [run] at kept
    exact second a s' kept
  | error e s' =>
    rw [run] at kept
    exact kept

/-- A run that is computed shows how an operation fails. -/
theorem exists_error_of_match {op : EStateM ε σ α} {s : σ} {p : ε → σ → Bool}
    (held : (match op s with | .ok _ _ => false | .error e s' => p e s') = true) :
    ∃ e s', op s = .error e s' ∧ p e s' = true := by
  cases run : op s with
  | ok _ s' =>
    rw [run] at held
    cases held
  | error e s' =>
    rw [run] at held
    exact ⟨e, s', rfl, held⟩

/-- A result that is computed shows which error it is. -/
theorem eq_error_of_match [DecidableEq ε] {result : Except ε α} {e : ε}
    (held : (match result with | .ok _ => false | .error e' => decide (e' = e)) = true) :
    result = .error e := by
  cases result with
  | ok a => cases held
  | error e' => rw [of_decide_eq_true held]

/-- A loop fails at the first element that fails, after those before it have succeeded. -/
theorem forM_eq_error_iff {f : α → EStateM ε σ PUnit} {xs : List α} {s s' : σ} {e : ε} :
    xs.forM f s = .error e s' ↔ ∃ before x after s₁, xs = before ++ x :: after ∧
      before.forM f s = .ok ⟨⟩ s₁ ∧ f x s₁ = .error e s' := by
  have cons (x : α) (xs : List α) : (x :: xs).forM f = f x >>= fun _ => xs.forM f := rfl
  induction xs generalizing s with
  | nil =>
    refine ⟨fun run => (by cases run), ?_⟩
    rintro ⟨before, x, after, s₁, split, -⟩
    cases before <;> cases split
  | cons x xs ih =>
    rw [cons, run_bind]
    cases first : f x s with
    | error e₁ s₁ =>
      constructor
      · intro run
        cases run
        exact ⟨[], x, xs, s, rfl, rfl, first⟩
      · rintro ⟨before, y, after, s₂, split, earlier, failed⟩
        cases before with
        | nil =>
          cases split
          cases earlier
          exact first.symm.trans failed
        | cons z before =>
          cases split
          rw [cons, run_bind, first] at earlier
          cases earlier
    | ok u s₁ =>
      refine Iff.trans ih ?_
      constructor
      · rintro ⟨before, y, after, s₂, rfl, earlier, failed⟩
        refine ⟨x :: before, y, after, s₂, rfl, ?_, failed⟩
        rw [cons, run_bind, first]
        exact earlier
      · rintro ⟨before, y, after, s₂, split, earlier, failed⟩
        cases before with
        | nil =>
          cases split
          cases earlier
          rw [first] at failed
          cases failed
        | cons z before =>
          cases split
          rw [cons, run_bind, first] at earlier
          exact ⟨before, y, after, s₂, rfl, earlier, failed⟩

end SectionStore
