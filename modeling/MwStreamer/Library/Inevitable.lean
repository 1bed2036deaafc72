import Mathlib.Data.Nat.Basic
import MwStreamer.Library.Transition

/-!
# What happens whatever is done

A goal is inevitable where a step is possible until it is reached and every choice of steps reaches it.  A number
that every step lowers shows this.  Where some run lowers the number, some run reaches the goal.
-/

variable {σ : Type} {step : σ → σ → Prop} {goal : σ → Prop}

namespace Inevitable

end Inevitable

/-- **A run that reaches a goal**, put together from runs that lower a measure of what is left. -/
theorem Transition.Run.reaches {ε : Type} {T : Transition σ ε} (Inv goal : σ → Prop) (rank : σ → ℕ)
    (hlower : ∀ s, Inv s → ¬goal s → ∃ es t, T.Run s es t ∧ Inv t ∧ rank t < rank s) {s : σ} (hs : Inv s) :
    ∃ es t, T.Run s es t ∧ Inv t ∧ goal t := by
  induction hrank : rank s using Nat.strong_induction_on generalizing s with
  | h n ih =>
    by_cases hgoal : goal s
    · exact ⟨[], s, .refl s, hs, hgoal⟩
    · obtain ⟨es, t, hrun, hinv, hlt⟩ := hlower s hs hgoal
      obtain ⟨fs, u, hrest, hu, hgoal'⟩ := ih (rank t) (hrank ▸ hlt) hinv rfl
      exact ⟨es ++ fs, u, hrun.trans hrest, hu, hgoal'⟩
