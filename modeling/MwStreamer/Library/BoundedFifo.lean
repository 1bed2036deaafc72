import Mathlib.Data.List.Infix
import MwStreamer.Library.Transition

/-!
# The bounded queue that can be closed

The sequential object a concurrent queue is measured against: a list of at most `capacity` items and a flag.
One call has one effect on it.  A history is a run of such effects, oldest first; in every history from the
empty queue what was popped is a prefix of what was pushed, nothing is pushed once the queue is closed, and a
pop finds it closed only when everything was popped.
-/

namespace BoundedFifo

variable {α : Type}

structure State (α : Type) where
  items : List α := []
  closed : Bool := false

/-- What one call did.  The last five leave the queue as it is. -/
inductive Effect (α : Type) where
  | push (value : α)
  | pop (value : α)
  | close
  /-- A push that may not wait found no space. -/
  | full
  /-- A pop that may not wait found nothing. -/
  | empty
  | pushClosed
  | popClosed
  | nothing

inductive Legal (capacity : ℕ) : State α → Effect α → State α → Prop where
  | push {items : List α} (value : α) (h : items.length < capacity) :
      Legal capacity ⟨items, false⟩ (.push value) ⟨items ++ [value], false⟩
  | pop (value : α) (items : List α) (closed : Bool) :
      Legal capacity ⟨value :: items, closed⟩ (.pop value) ⟨items, closed⟩
  | close (items : List α) (closed : Bool) : Legal capacity ⟨items, closed⟩ .close ⟨items, true⟩
  | full {items : List α} (h : capacity ≤ items.length) :
      Legal capacity ⟨items, false⟩ .full ⟨items, false⟩
  | empty : Legal capacity ⟨[], false⟩ .empty ⟨[], false⟩
  | pushClosed (items : List α) : Legal capacity ⟨items, true⟩ .pushClosed ⟨items, true⟩
  | popClosed : Legal capacity ⟨[], true⟩ .popClosed ⟨[], true⟩
  | nothing (s : State α) : Legal capacity s .nothing s

/-- Histories of the queue. -/
def fifo (α : Type) (capacity : ℕ) : Transition (State α) (Effect α) where
  init s := s = {}
  step s effects t := ∃ effect, effects = [effect] ∧ Legal capacity s effect t

def Effect.pushed? : Effect α → Option α
  | .push value => some value
  | _ => none

def Effect.popped? : Effect α → Option α
  | .pop value => some value
  | _ => none

def pushed (effects : List (Effect α)) : List α := effects.filterMap Effect.pushed?

def popped (effects : List (Effect α)) : List α := effects.filterMap Effect.popped?

variable {capacity : ℕ} {s t : State α} {effects : List (Effect α)}

/-- Items enter at the back and leave at the front. -/
theorem Legal.flow {effect : Effect α} (h : Legal capacity s effect t) :
    s.items ++ [effect].filterMap Effect.pushed? = [effect].filterMap Effect.popped? ++ t.items := by
  cases h with
  | push value h => rfl
  | pop value items closed => exact List.append_nil _
  | close items closed => exact List.append_nil _
  | full h => exact List.append_nil _
  | empty => rfl
  | pushClosed items => exact List.append_nil _
  | popClosed => rfl
  | nothing s => exact List.append_nil _

theorem Legal.bounded {effect : Effect α} (h : Legal capacity s effect t)
    (hs : s.items.length ≤ capacity) : t.items.length ≤ capacity := by
  cases h with
  | push value h =>
    rw [List.length_append, List.length_singleton]
    omega
  | pop value items closed =>
    rw [List.length_cons] at hs
    dsimp only
    omega
  | close items closed => exact hs
  | full h => exact hs
  | empty => exact hs
  | pushClosed items => exact hs
  | popClosed => exact hs
  | nothing s => exact hs

theorem Legal.closed {effect : Effect α} (h : Legal capacity s effect t) (hs : s.closed = true) :
    t.closed = true ∧ effect.pushed? = none := by
  cases h with
  | push value h => cases hs
  | pop value items closed => exact ⟨hs, rfl⟩
  | close items closed => exact ⟨rfl, rfl⟩
  | full h => cases hs
  | empty => cases hs
  | pushClosed items => exact ⟨rfl, rfl⟩
  | popClosed => exact ⟨rfl, rfl⟩
  | nothing s => exact ⟨hs, rfl⟩

theorem run_bounded (h : (fifo α capacity).Run s effects t) (hs : s.items.length ≤ capacity) :
    t.items.length ≤ capacity := by
  induction h with
  | refl => exact hs
  | snoc _ hstep ih =>
    obtain ⟨effect, -, hlegal⟩ := hstep
    exact hlegal.bounded ih

/-- **What was popped and what waits is what was pushed.** -/
theorem run_flow (h : (fifo α capacity).Run s effects t) :
    s.items ++ pushed effects = popped effects ++ t.items := by
  induction h with
  | refl =>
    show s.items ++ [] = [] ++ s.items
    rw [List.append_nil, List.nil_append]
  | snoc _ hstep ih =>
    obtain ⟨effect, rfl, hlegal⟩ := hstep
    have hflow := hlegal.flow
    rw [pushed, popped, List.filterMap_append, List.filterMap_append, ← List.append_assoc]
    rw [pushed, popped] at ih
    rw [ih, List.append_assoc, hflow, List.append_assoc]

theorem run_closed (h : (fifo α capacity).Run s effects t) (hs : s.closed = true) :
    t.closed = true ∧ pushed effects = [] := by
  induction h with
  | refl => exact ⟨hs, rfl⟩
  | snoc _ hstep ih =>
    obtain ⟨effect, rfl, hlegal⟩ := hstep
    obtain ⟨hclosed, hnone⟩ := hlegal.closed ih.1
    refine ⟨hclosed, ?_⟩
    rw [pushed, List.filterMap_append, ← pushed, ih.2, List.nil_append, List.filterMap_cons, hnone]
    rfl

/-- A history around one of its effects. -/
theorem run_split {effect : Effect α} {before after : List (Effect α)}
    (h : (fifo α capacity).Run s (before ++ effect :: after) t) :
    ∃ u v, (fifo α capacity).Run s before u ∧ Legal capacity u effect v ∧
      (fifo α capacity).Run v after t := by
  obtain ⟨as, es, fs, bs, u, v, rfl, rfl, hfirst, hstep, hlast⟩ := h.split rfl
  obtain ⟨effect', heq, hlegal⟩ := hstep
  cases es with
  | nil =>
    obtain ⟨rfl, rfl⟩ := List.cons.inj heq
    rw [List.append_nil]
    exact ⟨u, v, hfirst, hlegal, hlast⟩
  | cons e es =>
    have hnil := (List.cons.inj heq).2
    simp at hnil

/-- **Nothing is pushed once the queue is closed.** -/
theorem no_push_after_close {before after : List (Effect α)}
    (h : (fifo α capacity).Run s (before ++ .close :: after) t) : pushed after = [] := by
  obtain ⟨u, v, -, hlegal, hlast⟩ := run_split h
  cases hlegal
  exact (run_closed hlast rfl).2

/-- **A pop finds the queue closed only when everything was popped.** -/
theorem popped_all_of_closed {before after : List (Effect α)}
    (h : (fifo α capacity).Run {} (before ++ .popClosed :: after) t) :
    pushed before = popped before := by
  obtain ⟨u, v, hfirst, hlegal, -⟩ := run_split h
  have hflow := run_flow hfirst
  cases hlegal
  rwa [List.append_nil] at hflow

/-- **What was popped is a prefix of what was pushed.** -/
theorem popped_prefix (h : (fifo α capacity).Run {} effects t) : popped effects <+: pushed effects :=
  ⟨t.items, (run_flow h).symm⟩

end BoundedFifo
