import Mathlib.Data.List.Basic

/-!
# Counting wakeups

Threads wait for units of a resource and are woken one at a time.  A thread is `active` when it was woken and
has not looked yet, or still owes a notification.  No wakeup is lost as long as, whenever someone waits, there
are at least as many active threads as units (`Covered`): a unit that is there while a thread waits has a
thread that will take it or pass the notification on.  One thread's move keeps this when its change in units
is paid by its change in activity.
-/

namespace Wakeups

variable {τ : Type} (waiting active : τ → Bool)

/-- Whenever someone waits, the active threads cover the units. -/
def Covered (threads : List τ) (units : ℕ) : Prop :=
  (∃ t ∈ threads, waiting t = true) → units ≤ threads.countP active

variable {waiting active} {threads : List τ} {units units' i : ℕ} {a b : τ}

theorem covered_zero : Covered waiting active threads 0 := fun _ => Nat.zero_le _

theorem covered_of_none (h : ∀ t ∈ threads, waiting t = false) : Covered waiting active threads units := by
  rintro ⟨t, ht, hw⟩
  rw [h t ht] at hw
  cases hw

theorem countP_set (hi : threads[i]? = some a) :
    (threads.set i b).countP active + (active a).toNat = threads.countP active + (active b).toNat := by
  obtain ⟨hlt, hget⟩ := List.getElem?_eq_some_iff.mp hi
  have hcount := List.countP_set (p := active) hlt (a := b)
  have hle : (active a).toNat ≤ threads.countP active := by
    cases ha : active a with
    | false => exact Nat.zero_le _
    | true =>
      have hmem : a ∈ threads := List.mem_of_getElem? hi
      exact List.countP_pos_iff.mpr ⟨a, hmem, ha⟩
  rw [hcount, hget]
  cases ha : active a <;> cases hb : active b <;> simp_all

/-- **The move of one thread** that does not end up waiting. -/
theorem Covered.set (hc : Covered waiting active threads units) (hi : threads[i]? = some a)
    (hb : waiting b = false) (h : units' + (active a).toNat ≤ units + (active b).toNat) :
    Covered waiting active (threads.set i b) units' := by
  rintro ⟨t, ht, hw⟩
  have hcount : (threads.set i b).countP active + (active a).toNat
      = threads.countP active + (active b).toNat := countP_set hi
  have hold : ∃ t ∈ threads, waiting t = true := by
    rcases List.mem_or_eq_of_mem_set ht with ht | rfl
    · exact ⟨t, ht, hw⟩
    · rw [hb] at hw
      cases hw
  have := hc hold
  omega

/-- **No stuck waiter.**  Where a thread waits and a unit is there, some thread is active. -/
theorem Covered.exists_active (hc : Covered waiting active threads units)
    (hw : ∃ t ∈ threads, waiting t = true) (hunits : 0 < units) : ∃ t ∈ threads, active t = true :=
  List.countP_pos_iff.mp (Nat.lt_of_lt_of_le hunits (hc hw))

end Wakeups
