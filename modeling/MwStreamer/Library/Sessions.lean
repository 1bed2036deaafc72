import Mathlib.Data.List.DropRight

/-!
# Histories of a component that is started again

Some events of a history open a session.  What a component keeps for a session is measured against the events
since the last of them, which a session's own events lengthen and the next opening forgets.
-/

namespace Sessions

variable {ε : Type} {opens : ε → Bool} {history events : List ε} {e : ε}

/-- The events since the last one that opened a session. -/
def latest (opens : ε → Bool) (history : List ε) : List ε := history.rtakeWhile fun e => !opens e

theorem latest_opened (h : opens e = true) : latest opens (history ++ [e]) = [] := by
  rw [latest, List.rtakeWhile_concat, h]
  rfl

theorem latest_append (h : ∀ e ∈ events, opens e = false) :
    latest opens (history ++ events) = latest opens history ++ events := by
  induction events using List.reverseRecOn with
  | nil => rw [List.append_nil, List.append_nil]
  | append_singleton events e ih =>
    have he : opens e = false := h e (by simp)
    have hevents : ∀ e ∈ events, opens e = false := fun e' he' => h e' (List.mem_append_left _ he')
    rw [← List.append_assoc, latest, List.rtakeWhile_concat, he, ← latest, ih hevents, List.append_assoc]
    rfl

variable {β : Type} {f : ε → Option β}

/-- What the events of the current session carry. -/
def select (opens : ε → Bool) (f : ε → Option β) (history : List ε) : List β := (latest opens history).filterMap f

theorem select_opened (h : opens e = true) : select opens f (history ++ [e]) = [] := by
  rw [select, latest_opened h]
  rfl

theorem select_append (h : ∀ e ∈ events, opens e = false) :
    select opens f (history ++ events) = select opens f history ++ events.filterMap f := by
  rw [select, latest_append h, List.filterMap_append, ← select]

/-- Events that carry nothing. -/
theorem select_same (h : ∀ e ∈ events, opens e = false) (hf : ∀ e ∈ events, f e = none) :
    select opens f (history ++ events) = select opens f history := by
  rw [select_append h, List.filterMap_eq_nil_iff.mpr hf, List.append_nil]

end Sessions
