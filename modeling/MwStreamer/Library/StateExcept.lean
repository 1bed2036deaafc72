/-!
# Programs with state and exceptions

An imperative method is an `EStateM ε σ α`: it reads and writes a state, may stop with an exception, and
keeps the state it had reached when it stops.  `Ensures x s Q E` says that `x`, run from `s`, ends either
with a result satisfying `Q` or with an exception satisfying `E`; both see the final state.

The rules below are equations, so rewriting with them executes a program symbolically.  Loops do not occur;
a called method is used through its own `Ensures` lemma and `Ensures.mono`.
-/

namespace StateExcept

variable {ε σ α β : Type}

/-- A computation that may fail, taken apart. -/
theorem bind_ok {x : Except ε α} {f : α → Except ε β} {b : β} (h : (x >>= f) = .ok b) :
    ∃ a, x = .ok a ∧ f a = .ok b := by
  cases x with
  | error e => cases h
  | ok a => exact ⟨a, rfl, h⟩

/-- Where a failed computation failed. -/
theorem bind_error {x : Except ε α} {f : α → Except ε β} {e : ε} (h : (x >>= f) = .error e) :
    x = .error e ∨ ∃ a, x = .ok a ∧ f a = .error e := by
  cases x with
  | error e' => exact .inl (congrArg Except.error (Except.error.inj h))
  | ok a => exact .inr ⟨a, rfl, h⟩

/-- Run from `s`, the program ends in `Q` or throws into `E`. -/
def Ensures (x : EStateM ε σ α) (s : σ) (Q : α → σ → Prop) (E : ε → σ → Prop) : Prop :=
  match x s with
  | .ok a s' => Q a s'
  | .error e s' => E e s'

variable {s : σ} {Q Q' : α → σ → Prop} {E E' : ε → σ → Prop}

theorem Ensures.mono {x : EStateM ε σ α} (h : Ensures x s Q E)
    (hQ : ∀ a s', Q a s' → Q' a s') (hE : ∀ e s', E e s' → E' e s') : Ensures x s Q' E' := by
  unfold Ensures at *
  cases hx : x s with
  | ok a s' => rw [hx] at h; exact hQ a s' h
  | error e s' => rw [hx] at h; exact hE e s' h

/-- What is ensured holds of the run that happened. -/
theorem Ensures.ok {x : EStateM ε σ α} (h : Ensures x s Q E) {a : α} {s' : σ}
    (hx : x s = .ok a s') : Q a s' := by
  rw [Ensures, hx] at h
  exact h

theorem Ensures.error {x : EStateM ε σ α} (h : Ensures x s Q E) {e : ε} {s' : σ}
    (hx : x s = .error e s') : E e s' := by
  rw [Ensures, hx] at h
  exact h

theorem ensures_pure (a : α) : Ensures (pure a : EStateM ε σ α) s Q E ↔ Q a s := Iff.rfl

theorem ensures_throw (e : ε) : Ensures (throw e : EStateM ε σ α) s Q E ↔ E e s := Iff.rfl

theorem ensures_bind (x : EStateM ε σ α) (f : α → EStateM ε σ β) {Q : β → σ → Prop} :
    Ensures (x >>= f) s Q E ↔ Ensures x s (fun a s' => Ensures (f a) s' Q E) E := by
  simp only [Ensures, bind, EStateM.bind]
  cases x s <;> exact Iff.rfl

theorem ensures_modify (f : σ → σ) {Q : PUnit → σ → Prop} :
    Ensures (modify f : EStateM ε σ PUnit) s Q E ↔ Q ⟨⟩ (f s) := Iff.rfl

theorem ensures_ite {p : Prop} [Decidable p] (x y : EStateM ε σ α) :
    Ensures (if p then x else y) s Q E ↔ (p → Ensures x s Q E) ∧ (¬p → Ensures y s Q E) := by
  by_cases hp : p <;> simp [hp]

/-- A pure computation that may fail, inside a program. -/
def attempt (x : Except ε α) : EStateM ε σ α :=
  match x with
  | .ok a => pure a
  | .error e => throw e

theorem ensures_attempt (x : Except ε α) :
    Ensures (attempt x) s Q E ↔ (∀ a, x = .ok a → Q a s) ∧ (∀ e, x = .error e → E e s) := by
  cases x <;> simp [attempt, ensures_pure, ensures_throw]

end StateExcept
