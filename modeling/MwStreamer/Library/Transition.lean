/-!
# Transition systems that emit events

A component that is called again and again is a set of initial states and a step relation.  A step may
emit events, and a run collects the events of its steps in order, so that a property of a whole history
is a property of one list.

An invariant may speak of the history as well as of the state.  `Run.induct` carries such an invariant
from the start of a run to its end; `Reachable.invariant` is the special case without a history.
-/

/-- Initial states and steps; a step emits a list of events. -/
structure Transition (σ ε : Type) where
  init : σ → Prop
  step : σ → List ε → σ → Prop

namespace Transition

variable {σ ε : Type}

/-- A finite run and the events it emitted, oldest first. -/
inductive Run (T : Transition σ ε) : σ → List ε → σ → Prop where
  | refl (s : σ) : Run T s [] s
  | snoc {s t u : σ} {es fs : List ε} : Run T s es t → T.step t fs u → Run T s (es ++ fs) u

/-- The states some run from an initial state ends in. -/
inductive Reachable (T : Transition σ ε) : σ → Prop where
  | init {s : σ} : T.init s → Reachable T s
  | step {s t : σ} {es : List ε} : Reachable T s → T.step s es t → Reachable T t

variable {T : Transition σ ε}

theorem Run.single {s t : σ} {es : List ε} (h : T.step s es t) : T.Run s es t := by
  have hrun := Run.snoc (.refl s) h
  rwa [List.nil_append] at hrun

theorem Run.trans {s t u : σ} {es fs : List ε} (h₁ : T.Run s es t) (h₂ : T.Run t fs u) :
    T.Run s (es ++ fs) u := by
  induction h₂ with
  | refl => rwa [List.append_nil]
  | snoc _ hstep ih =>
    rw [← List.append_assoc]
    exact .snoc ih hstep

theorem Reachable.run {s t : σ} {es : List ε} (hs : T.Reachable s) (h : T.Run s es t) :
    T.Reachable t := by
  induction h with
  | refl => exact hs
  | snoc _ hstep ih => exact .step ih hstep

/-- **Invariants of states and histories.**  An invariant that holds before a run and survives every step
from a reachable state holds after the run. -/
theorem Run.induct {Inv : List ε → σ → Prop} {s t : σ} {es : List ε} (hs : T.Reachable s)
    (h : T.Run s es t) (hinit : Inv [] s)
    (hstep : ∀ es t fs u, T.Reachable t → Inv es t → T.step t fs u → Inv (es ++ fs) u) : Inv es t := by
  induction h with
  | refl => exact hinit
  | snoc hrun hlast ih => exact hstep _ _ _ _ (hs.run hrun) ih hlast

/-- **Invariants of states.** -/
theorem Reachable.invariant {Inv : σ → Prop} {s : σ} (hs : T.Reachable s)
    (hinit : ∀ s, T.init s → Inv s)
    (hstep : ∀ s es t, T.Reachable s → Inv s → T.step s es t → Inv t) : Inv s := by
  induction hs with
  | init h => exact hinit _ h
  | step hs h ih => exact hstep _ _ _ hs ih h

/-- **Flow through a stock.**  Where every step takes out of the front of a stock what it emits as `outflow`
and adds behind it what it emits as `inflow`, so does a run.  `Live` limits this to the runs before some
event, such as a stop. -/
theorem Run.flow {α : Type} {stock : σ → List α} {inflow outflow : ε → Option α} {Live : σ → Prop}
    (hlive : ∀ s es t, T.step s es t → Live t → Live s)
    (hstep : ∀ s es t, T.Reachable s → T.step s es t → Live t →
      stock s ++ es.filterMap inflow = es.filterMap outflow ++ stock t)
    {s t : σ} {es : List ε} (hs : T.Reachable s) (h : T.Run s es t) (ht : Live t) :
    stock s ++ es.filterMap inflow = es.filterMap outflow ++ stock t := by
  induction h with
  | refl => rw [List.filterMap_nil, List.filterMap_nil, List.append_nil, List.nil_append]
  | snoc hrun hlast ih =>
    have hfirst := ih (hlive _ _ _ hlast ht)
    have hnext := hstep _ _ _ (hs.run hrun) hlast ht
    rw [List.filterMap_append, List.filterMap_append, ← List.append_assoc, hfirst, List.append_assoc, hnext,
      List.append_assoc]

/-- The step of a run that emitted a given event. -/
theorem Run.split {s t : σ} {es es₁ es₂ : List ε} {e : ε} (h : T.Run s es t) (heq : es = es₁ ++ e :: es₂) :
    ∃ as fs₁ fs₂ bs u v, es₁ = as ++ fs₁ ∧ es₂ = fs₂ ++ bs ∧ T.Run s as u ∧
      T.step u (fs₁ ++ e :: fs₂) v ∧ T.Run v bs t := by
  induction h generalizing es₂ with
  | refl => simp at heq
  | @snoc u t es fs hrun hstep ih =>
    rcases List.append_eq_append_iff.mp heq with ⟨fs₁, rfl, hfs⟩ | ⟨bs, hes, hbs⟩
    · exact ⟨es, fs₁, es₂, [], u, t, rfl, (List.append_nil _).symm, hrun, hfs ▸ hstep, .refl t⟩
    · cases bs with
      | nil =>
        rw [List.append_nil] at hes
        rw [List.nil_append] at hbs
        subst hes hbs
        exact ⟨es, [], es₂, [], u, t, (List.append_nil _).symm, (List.append_nil _).symm, hrun, hstep, .refl t⟩
      | cons b bs =>
        obtain ⟨rfl, rfl⟩ := List.cons.inj hbs
        obtain ⟨as, fs₁, fs₂, cs, u', v, has, hfs, hrun', hstep', hrest⟩ := ih hes
        exact ⟨as, fs₁, fs₂, cs ++ fs, u', v, has, by rw [hfs]; exact List.append_assoc _ _ _, hrun', hstep',
          .snoc hrest hstep⟩

/-- The step of a run that emitted a given event, where a step emits one event at most. -/
theorem Run.split_single (hone : ∀ s es t, T.step s es t → es.length ≤ 1) {s t : σ} {es es₁ es₂ : List ε} {e : ε}
    (h : T.Run s es t) (heq : es = es₁ ++ e :: es₂) : ∃ u v, T.Run s es₁ u ∧ T.step u [e] v ∧ T.Run v es₂ t := by
  obtain ⟨as, fs₁, fs₂, bs, u, v, rfl, rfl, hrun, hstep, hrest⟩ := h.split heq
  have hlength := hone _ _ _ hstep
  rw [List.length_append, List.length_cons] at hlength
  obtain rfl := List.eq_nil_of_length_eq_zero (show fs₁.length = 0 by omega)
  obtain rfl := List.eq_nil_of_length_eq_zero (show fs₂.length = 0 by omega)
  rw [List.append_nil]
  exact ⟨u, v, hrun, hstep, hrest⟩

/-- A weaker system reaches no more. -/
theorem Reachable.mono {T' : Transition σ ε} {s : σ} (hs : T.Reachable s)
    (hinit : ∀ s, T.init s → T'.init s) (hstep : ∀ s es t, T.step s es t → T'.step s es t) :
    T'.Reachable s := by
  induction hs with
  | init h => exact .init (hinit _ h)
  | step _ h ih => exact .step ih (hstep _ _ _ h)

/-! ### Replaying calls -/

variable {γ : Type}

/-- Calls one after the other, with all the events they emit. -/
def replay (perform : σ → γ → List ε × σ) (s : σ) : List γ → List ε × σ
  | [] => ([], s)
  | call :: calls =>
    let later := replay perform (perform s call).2 calls
    ((perform s call).1 ++ later.1, later.2)

/-- Replayed calls are a run of a system that allows each of them. -/
theorem replay_run {perform : σ → γ → List ε × σ}
    (h : ∀ s call, T.step s (perform s call).1 (perform s call).2) (s : σ) (calls : List γ) :
    T.Run s (replay perform s calls).1 (replay perform s calls).2 := by
  induction calls generalizing s with
  | nil => exact .refl s
  | cons call calls ih => exact .trans (.single (h s call)) (ih _)

/-- The acts of a list one after the other, if each is possible, with all the events they emit. -/
def execute (next : σ → γ → Option (List ε × σ)) (s : σ) : List γ → Option (List ε × σ)
  | [] => some ([], s)
  | act :: acts =>
    match next s act with
    | none => none
    | some (events, t) => (execute next t acts).map fun later => (events ++ later.1, later.2)

/-- An executed list is a run of a system that allows each of its acts. -/
theorem execute_run {next : σ → γ → Option (List ε × σ)}
    (h : ∀ s act es t, next s act = some (es, t) → T.step s es t) {s t : σ} {es : List ε} {acts : List γ}
    (hacts : execute next s acts = some (es, t)) : T.Run s es t := by
  induction acts generalizing s es with
  | nil =>
    obtain ⟨rfl, rfl⟩ := Prod.mk.inj (Option.some.inj hacts)
    exact .refl s
  | cons act acts ih =>
    rw [execute] at hacts
    split at hacts
    · cases hacts
    · rename_i events u hnext
      obtain ⟨⟨later, v⟩, hlater, heq⟩ := Option.map_eq_some_iff.mp hacts
      obtain ⟨rfl, rfl⟩ := Prod.mk.inj heq
      exact .trans (.single (h _ _ _ _ hnext)) (ih hlater)

end Transition
