import Mathlib.Data.Finset.Basic
import Mathlib.Logic.Function.Basic

/-!
# Exclusive reservations

Owners reserve keys in a common set, each at most one at a time.  The reservations are exact when the set holds
just the keys that are held, and no two owners hold the same.  Reserving a key that is free and releasing the
key one holds keep them exact, whatever the other owners hold.
-/

namespace Reservation

variable {ι κ : Type}

/-- The set is that of the keys held, and every key has one holder. -/
structure Exact (taken : Finset κ) (held : ι → Option κ) : Prop where
  mem_iff : ∀ key, key ∈ taken ↔ ∃ i, held i = some key
  unique : ∀ i j key, held i = some key → held j = some key → i = j

variable {taken : Finset κ} {held held' : ι → Option κ}

theorem Exact.existsUnique (h : Exact taken held) (key : κ) :
    key ∈ taken ↔ ∃ i, held i = some key ∧ ∀ j, held j = some key → j = i := by
  rw [h.mem_iff]
  constructor
  · rintro ⟨i, hi⟩
    exact ⟨i, hi, fun j hj => h.unique j i key hj hi⟩
  · rintro ⟨i, hi, -⟩
    exact ⟨i, hi⟩

theorem exact_empty : Exact (∅ : Finset κ) fun _ : ι => none where
  mem_iff key := by simp
  unique i j key hi := by cases hi

theorem Exact.congr (h : Exact taken held) (hsame : ∀ i, held' i = held i) : Exact taken held' := by
  have heq : held' = held := funext hsame
  rw [heq]
  exact h

/-- **Reserving** a free key. -/
theorem Exact.reserve [DecidableEq κ] (h : Exact taken held) {i : ι} {key : κ} (hi : held i = none)
    (hfree : key ∉ taken) (hnew : held' i = some key) (hothers : ∀ j, j ≠ i → held' j = held j) :
    Exact (insert key taken) held' := by
  have hnobody : ∀ j, held j ≠ some key := fun j hj => hfree ((h.mem_iff key).mpr ⟨j, hj⟩)
  refine ⟨fun key' => ?_, fun j l key' hj hl => ?_⟩
  · rw [Finset.mem_insert, h.mem_iff]
    constructor
    · rintro (rfl | ⟨j, hj⟩)
      · exact ⟨i, hnew⟩
      · have hji : j ≠ i := by
          rintro rfl
          rw [hi] at hj
          cases hj
        exact ⟨j, (hothers j hji).trans hj⟩
    · rintro ⟨j, hj⟩
      by_cases hji : j = i
      · subst hji
        rw [hnew] at hj
        exact .inl (Option.some.inj hj).symm
      · rw [hothers j hji] at hj
        exact .inr ⟨j, hj⟩
  · by_cases hji : j = i
    · by_cases hli : l = i
      · rw [hji, hli]
      · rw [hji, hnew] at hj
        rw [hothers l hli, ← Option.some.inj hj] at hl
        exact absurd hl (hnobody l)
    · rw [hothers j hji] at hj
      by_cases hli : l = i
      · rw [hli, hnew] at hl
        rw [← Option.some.inj hl] at hj
        exact absurd hj (hnobody j)
      · rw [hothers l hli] at hl
        exact h.unique j l key' hj hl

/-- **Releasing** the key one holds. -/
theorem Exact.release [DecidableEq κ] (h : Exact taken held) {i : ι} {key : κ} (hi : held i = some key)
    (hnew : held' i = none) (hothers : ∀ j, j ≠ i → held' j = held j) : Exact (taken.erase key) held' := by
  have hback : ∀ j key', held' j = some key' → j ≠ i ∧ held j = some key' := by
    intro j key' hj
    have hji : j ≠ i := by
      rintro rfl
      rw [hnew] at hj
      cases hj
    exact ⟨hji, (hothers j hji).symm.trans hj⟩
  refine ⟨fun key' => ?_, fun j l key' hj hl => h.unique j l key' (hback j key' hj).2 (hback l key' hl).2⟩
  rw [Finset.mem_erase, h.mem_iff]
  constructor
  · rintro ⟨hne, j, hj⟩
    have hji : j ≠ i := by
      rintro rfl
      rw [hi] at hj
      exact hne (Option.some.inj hj).symm
    exact ⟨j, (hothers j hji).trans hj⟩
  · rintro ⟨j, hj⟩
    obtain ⟨hji, hold⟩ := hback j key' hj
    refine ⟨?_, j, hold⟩
    rintro rfl
    exact hji (h.unique j i key' hold hi)

end Reservation
