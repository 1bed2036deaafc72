import Mathlib.Data.List.Basic
import Mathlib.Logic.Function.Basic
import MwStreamer.Library.Sessions

/-!
# Threads that work off lists of steps

Each thread has a list of the steps it has still to take.  It takes the first of them, which may put others in
their place, and no thread takes a step of another.  So a step that was promised is taken or still on some list
(`Owed`), and a failure that the first thread to record it must report is reported once (`FirstFailure`).  `Account`
is that law about the events of a session.
-/

namespace Threads

variable {θ μ ε : Type} [DecidableEq θ] {p : μ → Prop} {todo : θ → List μ} {t : θ} {steps : List μ}

/-! ### One thread's list -/

/-- What holds of a thread's list, when some thread is bound to other steps. -/
theorem at_update {P : List μ → Prop} {u : θ} (h : P (todo u)) (hnew : u = t → P steps) :
    P (Function.update todo t steps u) := by
  by_cases hu : u = t
  · subst hu
    rw [Function.update_self]
    exact hnew rfl
  · rw [Function.update_of_ne hu]
    exact h

omit [DecidableEq θ] in
/-- A thread that takes its first step still has steps of one kind only. -/
theorem all_of_take {m : μ} {rest : List μ} (ht : todo t = m :: rest)
    (hnew : p m → ∀ x ∈ steps, x ∈ rest ∨ p x) (hall : ∀ x ∈ todo t, p x) : ∀ x ∈ steps, p x := by
  intro x hx
  rw [ht] at hall
  rcases hnew (hall m List.mem_cons_self) x hx with hrest | hp
  · exact hall x (List.mem_cons_of_mem _ hrest)
  · exact hp

/-! ### Promised steps -/

/-- Some thread has such a step left. -/
def Owed (p : μ → Prop) (todo : θ → List μ) : Prop := ∃ t, ∃ m ∈ todo t, p m

theorem Owed.of_mem {m : μ} (hm : m ∈ steps) (hp : p m) : Owed p (Function.update todo t steps) := by
  refine ⟨t, m, ?_, hp⟩
  rw [Function.update_self]
  exact hm

/-- A thread that keeps such a step as long as it had one. -/
theorem Owed.update (h : Owed p todo) (hkeeps : ∀ m ∈ todo t, p m → ∃ m' ∈ steps, p m') :
    Owed p (Function.update todo t steps) := by
  obtain ⟨u, m, hm, hp⟩ := h
  by_cases hu : u = t
  · subst hu
    obtain ⟨m', hm', hp'⟩ := hkeeps m hm hp
    exact .of_mem hm' hp'
  · refine ⟨u, m, ?_, hp⟩
    rw [Function.update_of_ne hu]
    exact hm

/-- A thread that had nothing to do is bound to something. -/
theorem Owed.fresh (ht : todo t = []) (h : Owed p todo) : Owed p (Function.update todo t steps) := by
  refine h.update fun m hm => ?_
  rw [ht] at hm
  cases hm

/-- A thread that takes its first step. -/
theorem Owed.take (h : Owed p todo) {m : μ} {rest : List μ} (ht : todo t = m :: rest)
    (hrest : ∀ x ∈ rest, x ∈ steps) (hm : ¬p m) : Owed p (Function.update todo t steps) := by
  refine h.update fun x hx hp => ?_
  rw [ht] at hx
  rcases List.mem_cons.mp hx with rfl | hx
  · exact absurd hp hm
  · exact ⟨x, hrest x hx, hp⟩

/-! ### The first failure -/

section FirstFailure

variable {f : μ → Option ε} {error : Option ε} {failures reports : List ε} {e : ε}

/-- The first failure and the steps that report one: it is recorded once, and one thread reports it once. -/
inductive FirstFailure (f : μ → Option ε) (todo : θ → List μ) : Option ε → List ε → List ε → Prop where
  | unfailed (hnone : ∀ t, (todo t).filterMap f = []) : FirstFailure f todo none [] []
  | pending (e : ε) (t : θ) (hone : (todo t).filterMap f = [e])
      (hothers : ∀ u, u ≠ t → (todo u).filterMap f = []) : FirstFailure f todo (some e) [e] []
  | reported (e : ε) (hnone : ∀ t, (todo t).filterMap f = []) : FirstFailure f todo (some e) [e] [e]

theorem filterMap_update (u : θ) (h : steps.filterMap f = (todo t).filterMap f) :
    (Function.update todo t steps u).filterMap f = (todo u).filterMap f := by
  by_cases hu : u = t
  · subst hu
    rw [Function.update_self]
    exact h
  · rw [Function.update_of_ne hu]

theorem FirstFailure.update (h : FirstFailure f todo error failures reports)
    (hsame : steps.filterMap f = (todo t).filterMap f) :
    FirstFailure f (Function.update todo t steps) error failures reports := by
  cases h with
  | unfailed hnone => exact .unfailed fun u => (filterMap_update u hsame).trans (hnone u)
  | pending e v hone hothers =>
    exact .pending e v ((filterMap_update v hsame).trans hone)
      fun u hu => (filterMap_update u hsame).trans (hothers u hu)
  | reported e hnone => exact .reported e fun u => (filterMap_update u hsame).trans (hnone u)

/-- The failure is recorded by the thread that will report it. -/
theorem FirstFailure.record (h : FirstFailure f todo none failures reports) (hsteps : steps.filterMap f = [e]) :
    FirstFailure f (Function.update todo t steps) (some e) (failures ++ [e]) reports := by
  cases h with
  | unfailed hnone =>
    refine .pending e t ?_ fun u hu => ?_
    · rw [Function.update_self]
      exact hsteps
    · rw [Function.update_of_ne hu]
      exact hnone u

theorem FirstFailure.report (h : FirstFailure f todo error failures reports)
    (ht : (todo t).filterMap f = e :: steps.filterMap f) :
    FirstFailure f (Function.update todo t steps) error failures (reports ++ [e]) := by
  cases h with
  | unfailed hnone =>
    rw [hnone t] at ht
    cases ht
  | pending e' v hone hothers =>
    obtain rfl : t = v := by
      by_contra hne
      rw [hothers t hne] at ht
      cases ht
    rw [hone] at ht
    obtain ⟨rfl, hnil⟩ := List.cons.inj ht
    refine .reported e' fun u => ?_
    by_cases hu : u = t
    · subst hu
      rw [Function.update_self]
      exact hnil.symm
    · rw [Function.update_of_ne hu]
      exact hothers u hu
  | reported e' hnone =>
    rw [hnone t] at ht
    cases ht

omit [DecidableEq θ] in
/-- Before the first failure nobody has one to report. -/
theorem FirstFailure.nothing (h : FirstFailure f todo none failures reports) (t : θ) : (todo t).filterMap f = [] := by
  cases h with
  | unfailed hnone => exact hnone t

omit [DecidableEq θ] in
theorem FirstFailure.failures_eq (h : FirstFailure f todo error failures reports) : failures = error.toList := by
  cases h with
  | unfailed _ => rfl
  | pending _ _ _ _ => rfl
  | reported _ _ => rfl

omit [DecidableEq θ] in
/-- Once no thread has a report left, the failure has been reported. -/
theorem FirstFailure.settled (h : FirstFailure f todo error failures reports)
    (hnone : ∀ t, (todo t).filterMap f = []) : reports = error.toList := by
  cases h with
  | unfailed _ => rfl
  | pending e t hone _ =>
    rw [hnone t] at hone
    cases hone
  | reported _ _ => rfl

omit [DecidableEq θ] in
theorem FirstFailure.once (h : FirstFailure f todo error failures reports) :
    reports = [] ∨ reports = error.toList := by
  cases h with
  | unfailed _ => exact .inl rfl
  | pending _ _ _ _ => exact .inl rfl
  | reported _ _ => exact .inr rfl

end FirstFailure

/-! ### The failures of a session -/

/-- What an event tells of the failures of a session. -/
inductive Kind (ε : Type) where
  | opens
  | failed (e : ε)
  | reported (e : ε)
  | aside

def Kind.isOpens : Kind ε → Bool
  | .opens => true
  | _ => false

def Kind.failed? : Kind ε → Option ε
  | .failed e => some e
  | _ => none

def Kind.reported? : Kind ε → Option ε
  | .reported e => some e
  | _ => none

def Kind.isAside : Kind ε → Bool
  | .aside => true
  | _ => false

variable {α : Type} {kind : α → Kind ε} {history events : List α} {a : α} {f : μ → Option ε}
  {error error' : Option ε} {todo' : θ → List μ} {e : ε}

/-- The failures recorded in the current session. -/
def failures (kind : α → Kind ε) (history : List α) : List ε :=
  Sessions.select (fun a => (kind a).isOpens) (fun a => (kind a).failed?) history

/-- The failures reported in the current session. -/
def reports (kind : α → Kind ε) (history : List α) : List ε :=
  Sessions.select (fun a => (kind a).isOpens) (fun a => (kind a).reported?) history

/-- **The account of the failures of a session**: the first is the only one recorded, and it is reported once. -/
def Account (kind : α → Kind ε) (f : μ → Option ε) (history : List α) (todo : θ → List μ) (error : Option ε) : Prop :=
  FirstFailure f todo error (failures kind history) (reports kind history)

theorem failures_aside (h : events.all fun a => (kind a).isAside) :
    failures kind (history ++ events) = failures kind history ∧
      reports kind (history ++ events) = reports kind history := by
  have hnone : ∀ a ∈ events, kind a = .aside := by
    intro a ha
    have haside := List.all_eq_true.mp h a ha
    cases hkind : kind a with
    | aside => rfl
    | _ =>
      rw [hkind] at haside
      cases haside
  exact ⟨Sessions.select_same (fun a ha => by rw [hnone a ha]; rfl) fun a ha => by rw [hnone a ha]; rfl,
    Sessions.select_same (fun a ha => by rw [hnone a ha]; rfl) fun a ha => by rw [hnone a ha]; rfl⟩

omit [DecidableEq θ] in
theorem Account.same (h : Account kind f history todo error) (hevents : events.all fun a => (kind a).isAside)
    (herror : error' = error) (htodo : todo' = todo) : Account kind f (history ++ events) todo' error' := by
  obtain ⟨hfailures, hreports⟩ : failures kind (history ++ events) = failures kind history ∧
      reports kind (history ++ events) = reports kind history := failures_aside hevents
  rw [Account, hfailures, hreports, herror, htodo]
  exact h

theorem Account.bind (h : Account kind f history todo error) (hevents : events.all fun a => (kind a).isAside) (t : θ)
    (herror : error' = error) (htodo : todo' = Function.update todo t steps)
    (hsame : steps.filterMap f = (todo t).filterMap f) : Account kind f (history ++ events) todo' error' := by
  rw [herror, htodo]
  exact (h.same hevents rfl rfl).update hsame

omit [DecidableEq θ] in
/-- A new session, where nobody has a failure to report. -/
theorem Account.opened (hkind : kind a = .opens) (hnone : ∀ t, (todo t).filterMap f = []) :
    Account kind f (history ++ [a]) todo none := by
  have hopens : (kind a).isOpens = true := by
    rw [hkind]
    rfl
  have hfailures : failures kind (history ++ [a]) = [] := Sessions.select_opened hopens
  have hreports : reports kind (history ++ [a]) = [] := Sessions.select_opened hopens
  rw [Account, hfailures, hreports]
  exact .unfailed hnone

/-- A failure is recorded by the thread that will report it. -/
theorem Account.record (h : Account kind f history todo none) (hkind : kind a = .failed e)
    (hsteps : steps.filterMap f = [e]) :
    Account kind f (history ++ [a]) (Function.update todo t steps) (some e) := by
  have hopens : ∀ b ∈ [a], (kind b).isOpens = false := fun b hb => by rw [List.mem_singleton.mp hb, hkind]; rfl
  have hreports : reports kind (history ++ [a]) = reports kind history :=
    Sessions.select_same hopens fun b hb => by rw [List.mem_singleton.mp hb, hkind]; rfl
  have hfailures : failures kind (history ++ [a]) = failures kind history ++ [e] := by
    rw [failures, Sessions.select_append hopens, List.filterMap_cons_some (by rw [hkind]; rfl)]
    rfl
  rw [Account, hfailures, hreports]
  exact FirstFailure.record h hsteps

theorem Account.report (h : Account kind f history todo error) (hkind : kind a = .reported e)
    (ht : (todo t).filterMap f = e :: steps.filterMap f) :
    Account kind f (history ++ [a]) (Function.update todo t steps) error := by
  have hopens : ∀ b ∈ [a], (kind b).isOpens = false := fun b hb => by rw [List.mem_singleton.mp hb, hkind]; rfl
  have hfailures : failures kind (history ++ [a]) = failures kind history :=
    Sessions.select_same hopens fun b hb => by rw [List.mem_singleton.mp hb, hkind]; rfl
  have hreports : reports kind (history ++ [a]) = reports kind history ++ [e] := by
    rw [reports, Sessions.select_append hopens, List.filterMap_cons_some (by rw [hkind]; rfl)]
    rfl
  rw [Account, hfailures, hreports]
  exact FirstFailure.report h ht

omit [DecidableEq θ] in
/-- A thread that had nothing to do is bound to steps that report nothing. -/
theorem reports_fresh (ht : todo t = []) (hnone : steps.filterMap f = []) :
    steps.filterMap f = (todo t).filterMap f := by
  rw [ht, hnone, List.filterMap_nil]

omit [DecidableEq θ] in
/-- A thread takes a step that reports nothing. -/
theorem reports_take {m : μ} {rest : List μ} (ht : todo t = m :: rest) (hm : f m = none)
    (hsame : steps.filterMap f = rest.filterMap f) : steps.filterMap f = (todo t).filterMap f := by
  rw [ht, List.filterMap_cons_none hm, hsame]

end Threads
