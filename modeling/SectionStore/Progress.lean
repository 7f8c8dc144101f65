/-!
# Operations that never give back what they have consumed

Readers are state machines whose state carries what is still to be read. `Shrinks size m` says that
a successful run of `m` leaves a state that is not larger than the one it began with. It holds of
the steps of a reader and passes from the parts of an operation to the whole, which is what loops
over readers rest their termination on.
-/

namespace SectionStore

/-- A successful run leaves a state that is not larger than the one it found. -/
def Shrinks {ε σ α : Type} (size : σ → Nat) (m : EStateM ε σ α) : Prop :=
  ∀ ⦃s s' : σ⦄ ⦃a : α⦄, m s = .ok a s' → size s' ≤ size s

namespace Shrinks

variable {ε σ α β : Type} {size : σ → Nat}

theorem pure (a : α) : Shrinks size (Pure.pure a : EStateM ε σ α) := by
  intro s s' b h
  cases h
  exact Nat.le_refl _

theorem throw (e : ε) : Shrinks size (MonadExcept.throw e : EStateM ε σ α) := by
  intro s s' b h
  cases h

theorem get : Shrinks size (MonadState.get : EStateM ε σ σ) := by
  intro s s' b h
  cases h
  exact Nat.le_refl _

theorem bind {m : EStateM ε σ α} {f : α → EStateM ε σ β} (first : Shrinks size m)
    (second : ∀ a, Shrinks size (f a)) : Shrinks size (m >>= f) := by
  intro s s' b h
  simp only [Bind.bind, EStateM.bind] at h
  split at h
  · rename_i a s₁ h₁
    exact Nat.le_trans (second a h) (first h₁)
  · cases h

end Shrinks

end SectionStore
