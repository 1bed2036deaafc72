import MwStreamer.Library.Inevitable
import MwStreamer.Pipeline.LiveStops
import Mathlib.Algebra.BigOperators.Group.Finset.Basic
import Mathlib.Algebra.Order.BigOperators.Group.Finset

/-!
# The answer of a live pipeline's `Start`

A `Start` that a stop or a failure overtakes does not commit: it answers false, with everything stopped.  Every
`Start` and every `Stop` returns, whatever the order in which the threads take the steps they are bound to.
-/

namespace MwStreamer

namespace LivePipeline

variable {s s' : LivePipeline} {events : List Event} {thread : Thread} {history : List Event}

/-! ### What a `Start` answers -/

/-- The pipeline was taken to `kRunning` before any stop and any failure. -/
def Committed (run : List Event) : Prop :=
  ∃ before after, run = before ++ .committed :: after ∧ .recorded ∉ before ∧ before.filterMap Event.failed? = []

theorem Committed.append {run : List Event} (h : Committed run) (later : List Event) : Committed (run ++ later) := by
  obtain ⟨before, after, hrun, hrest⟩ := h
  refine ⟨before, after ++ later, ?_, hrest⟩
  rw [hrun, List.append_assoc, List.cons_append]

structure Answered (history : List Event) (s : LivePipeline) : Prop where
  recorded : s.started = true → .recorded ∈ thisRun history → s.state = .stopping ∨ s.state = .failed
  committed : .committed ∈ thisRun history → Committed (thisRun history)
  returning : s.owner = .returning → .committed ∈ thisRun history
  succeeded : .returned true ∈ thisRun history → .committed ∈ thisRun history
  refused : .returned false ∈ thisRun history → s.started = false
  answers : .started ∈ history → s.owner.inStart = true ∨ ∃ success, .returned success ∈ thisRun history

/-- Events that say nothing about a `Start`. -/
def Event.beside : Event → Bool
  | .failed _ | .reported _ | .stopped _ => true
  | _ => false

theorem thisRun_append (h : ∀ e ∈ events, e.opens = false) : thisRun (history ++ events) = thisRun history ++ events :=
  Sessions.latest_append h

/-- A step that says nothing about a `Start`, in a state that still tells of a stop. -/
theorem Answered.beside (h : Answered history s) (hevents : events.all Event.beside = true)
    (hstarted : s'.started = s.started)
    (hstate : s.state = .stopping ∨ s.state = .failed → s'.state = .stopping ∨ s'.state = .failed)
    (hreturning : s'.owner = .returning → s.owner = .returning)
    (hstart : s.owner.inStart = true → s'.owner.inStart = true) : Answered (history ++ events) s' := by
  have hbeside : ∀ e ∈ events, e.beside = true := List.all_eq_true.mp hevents
  have hrun : thisRun (history ++ events) = thisRun history ++ events := by
    refine thisRun_append fun e he => ?_
    have := hbeside e he
    cases e with
    | started => cases this
    | _ => rfl
  have hold : ∀ e : Event, e.beside = false → e ∈ thisRun (history ++ events) → e ∈ thisRun history := by
    intro e hplain he
    rw [hrun] at he
    rcases List.mem_append.mp he with he | he
    · exact he
    · exact absurd (hplain.symm.trans (hbeside e he)) (by decide)
  have hnew : ∀ e : Event, e ∈ thisRun history → e ∈ thisRun (history ++ events) := by
    intro e he
    rw [hrun]
    exact List.mem_append_left _ he
  refine ⟨fun hs he => ?_, fun he => ?_, fun ho => ?_, fun he => ?_, fun he => ?_, fun he => ?_⟩
  · exact hstate (h.recorded (hstarted ▸ hs) (hold _ rfl he))
  · rw [hrun]
    exact (h.committed (hold _ rfl he)).append events
  · exact hnew _ (h.returning (hreturning ho))
  · exact hnew _ (h.succeeded (hold _ rfl he))
  · rw [hstarted]
    exact h.refused (hold _ rfl he)
  · have hbefore : .started ∈ history := by
      rcases List.mem_append.mp he with he | he
      · exact he
      · cases hbeside _ he
    exact (h.answers hbefore).imp hstart fun ⟨success, hmem⟩ => ⟨success, hnew _ hmem⟩

/-- A step without events. -/
theorem Answered.quiet (h : Answered history s) (hstarted : s'.started = s.started)
    (hstate : s'.state = s.state) (hreturning : s'.owner = .returning → s.owner = .returning)
    (hstart : s.owner.inStart = true → s'.owner.inStart = true) : Answered (history ++ []) s' :=
  h.beside rfl hstarted (fun htold => by rw [hstate]; exact htold) hreturning hstart

theorem afterStart_returning (c : Component) : Owner.afterStart c ≠ .returning := by cases c <;> simp [Owner.afterStart,
  Component.after]

theorem afterStop_returning (inStart : Bool) (c : Component) : Owner.afterStop inStart c ≠ .returning := by
  cases c <;> simp [Owner.afterStop, Component.stopsBefore]

/-- Unless a step begins a `Start`, its events are events of the run that goes on. -/
theorem mem_thisRun (hopens : ∀ e ∈ events, e.opens = false) {e : Event} :
    e ∈ thisRun (history ++ events) ↔ e ∈ thisRun history ∨ e ∈ events := by
  rw [thisRun_append hopens, List.mem_append]

theorem started_before (hopens : ∀ e ∈ events, e.opens = false) (h : .started ∈ history ++ events) :
    .started ∈ history := by
  rcases List.mem_append.mp h with h | h
  · exact h
  · cases hopens _ h

theorem Event.opens_singleton {e : Event} (he : e.opens = false) : ∀ e' ∈ [e], e'.opens = false :=
  fun _ he' => List.mem_singleton.mp he' ▸ he

/-! ### One lemma for each section that matters -/

theorem Answered.stopRecorded (h : Answered history s) (thread : Thread) (tasks : List Task) :
    Answered (history ++ if s.started then [.recorded] else []) ({ s with
      state := if s.started && s.state != State.failed then .stopping else s.state }.bind thread tasks) := by
  have hopens : ∀ e ∈ (if s.started then [Event.recorded] else []), e.opens = false := by
    intro e he
    split at he
    · exact List.mem_singleton.mp he ▸ rfl
    · cases he
  have hold : ∀ e : Event, e ≠ .recorded → e ∈ thisRun (history ++ if s.started then [Event.recorded] else []) →
      e ∈ thisRun history := by
    intro e hne he
    refine ((mem_thisRun hopens).mp he).resolve_right fun hlast => ?_
    split at hlast
    · exact hne (List.mem_singleton.mp hlast)
    · cases hlast
  have hnew : ∀ e : Event, e ∈ thisRun history →
      e ∈ thisRun (history ++ if s.started then [Event.recorded] else []) :=
    fun e he => (mem_thisRun hopens).mpr (.inl he)
  refine ⟨fun hs _ => ?_, fun he => ?_, fun ho => hnew _ (h.returning ho), fun he => ?_, fun he => ?_, fun he => ?_⟩
  · have hstarted : s.started = true := hs
    show (if s.started && s.state != State.failed then State.stopping else s.state) = .stopping ∨
      (if s.started && s.state != State.failed then State.stopping else s.state) = .failed
    rw [hstarted]
    cases s.state <;> simp
  · rw [thisRun_append hopens]
    exact (h.committed (hold _ (by simp) he)).append _
  · exact hnew _ (h.succeeded (hold _ (by simp) he))
  · exact h.refused (hold _ (by simp) he)
  · exact (h.answers (started_before hopens he)).imp_right fun ⟨success, hmem⟩ => ⟨success, hnew _ hmem⟩

/-- `Start` takes the pipeline to `kRunning`, where no stop and no failure has overtaken it. -/
theorem Answered.commits (hp : Placed s) (hf : Failures history s) (h : Answered history s)
    (howner : s.owner = .committing) (herror : s.error = none) (hstate : s.state ≠ .stopping) :
    Answered (history ++ [.committed]) { s with state := .running, owner := .returning } := by
  have hopens : ∀ e ∈ [Event.committed], e.opens = false := Event.opens_singleton rfl
  have hstarted : s.started = true := hp.began (by rw [howner]; rfl)
  have hunstopped : .recorded ∉ thisRun history := by
    intro hrecorded
    rcases h.recorded hstarted hrecorded with htold | htold
    · exact hstate htold
    · exact hp.told.mpr htold herror
  have hunfailed : (thisRun history).filterMap Event.failed? = [] := by
    have hfailures : failures history = s.error.toList := hf.failures_eq
    rw [herror] at hfailures
    exact hfailures
  have hmem : .committed ∈ thisRun (history ++ [.committed]) :=
    (mem_thisRun hopens).mpr (.inr (List.mem_singleton_self _))
  refine ⟨fun _ he => ?_, fun _ => ?_, fun _ => hmem, fun _ => hmem, fun he => ?_, fun _ => .inl rfl⟩
  · rcases (mem_thisRun hopens).mp he with he | he
    · exact absurd he hunstopped
    · cases List.mem_singleton.mp he
  · exact ⟨thisRun history, [], thisRun_append hopens, hunstopped, hunfailed⟩
  · rcases (mem_thisRun hopens).mp he with he | he
    · exact h.refused he
    · cases List.mem_singleton.mp he

theorem Answered.returned (h : Answered history s) (howner : s.owner = .returning) :
    Answered (history ++ [.returned true]) { s with owner := .idle } := by
  have hopens : ∀ e ∈ [Event.returned true], e.opens = false := Event.opens_singleton rfl
  have hcommitted : .committed ∈ thisRun (history ++ [.returned true]) :=
    (mem_thisRun hopens).mpr (.inl (h.returning howner))
  have hold : ∀ e : Event, e ≠ .returned true → e ∈ thisRun (history ++ [.returned true]) → e ∈ thisRun history := by
    intro e hne he
    exact ((mem_thisRun hopens).mp he).resolve_right fun hlast => hne (List.mem_singleton.mp hlast)
  refine ⟨fun hs he => h.recorded hs (hold _ (by simp) he), fun he => ?_, (fun ho => by cases ho),
    fun _ => hcommitted, fun he => h.refused (hold _ (by simp) he), fun _ => .inr ⟨true, ?_⟩⟩
  · rw [thisRun_append hopens]
    exact (h.committed (hold _ (by simp) he)).append _
  · exact (mem_thisRun hopens).mpr (.inr (List.mem_singleton_self _))

/-- The end of `StopAll`: a `Start` that rolls back answers false. -/
theorem Answered.finished (h : Answered history s) {inStart : Bool} (howner : s.owner = .finishing inStart)
    (state : State) : Answered (history ++ .stopped state :: if inStart then [.returned false] else [])
      { s with started := false, state := state, owner := .idle } := by
  have hopens : ∀ e ∈ Event.stopped state :: (if inStart then [Event.returned false] else []), e.opens = false := by
    intro e he
    rcases List.mem_cons.mp he with rfl | he
    · rfl
    · split at he
      · exact List.mem_singleton.mp he ▸ rfl
      · cases he
  have hold : ∀ e : Event, e.beside = false → e ≠ .returned false →
      e ∈ thisRun (history ++ (.stopped state :: if inStart then [.returned false] else [])) →
      e ∈ thisRun history := by
    intro e hbeside hne he
    refine ((mem_thisRun hopens).mp he).resolve_right fun hlast => ?_
    rcases List.mem_cons.mp hlast with rfl | hlast
    · cases hbeside
    · split at hlast
      · exact hne (List.mem_singleton.mp hlast)
      · cases hlast
  have hnew : ∀ e : Event, e ∈ thisRun history →
      e ∈ thisRun (history ++ (.stopped state :: if inStart then [.returned false] else [])) :=
    fun e he => (mem_thisRun hopens).mpr (.inl he)
  refine ⟨(fun hs => by cases hs), fun he => ?_, (fun ho => by cases ho), fun he => ?_, fun _ => rfl, fun he => ?_⟩
  · rw [thisRun_append hopens]
    exact (h.committed (hold _ rfl (by simp) he)).append _
  · exact hnew _ (h.succeeded (hold _ rfl (by simp) he))
  · rcases h.answers (started_before hopens he) with hin | ⟨success, hmem⟩
    · rw [howner] at hin
      have hstart : inStart = true := hin
      refine .inr ⟨false, (mem_thisRun hopens).mpr (.inr ?_)⟩
      rw [hstart]
      exact List.mem_cons_of_mem _ (List.mem_singleton_self _)
    · exact .inr ⟨success, hnew _ hmem⟩

theorem Answered.step (hp : Placed s) (hf : Failures history s) (h : Answered history s)
    (hstep : Stepped s events s') : Answered (history ++ events) s' := by
  cases hstep with
  | same => exact h.quiet rfl rfl id id
  | started _ _ =>
    have hrun : thisRun (history ++ [.started]) = [] := Sessions.latest_opened rfl
    refine ⟨fun _ he => ?_, fun he => ?_, (fun ho => by cases ho), fun he => ?_, fun he => ?_, fun _ => .inl rfl⟩
    all_goals
      rw [hrun] at he
      cases he
  | stop hidle => exact h.quiet rfl rfl (fun ho => by cases ho) (fun hin => by rw [hidle] at hin; cases hin)
  | requested _ => exact h.quiet rfl rfl id id
  | dropped _ _ => exact h.quiet rfl rfl id id
  | failed _ _ => exact h.beside rfl rfl (fun _ => .inr rfl) id id
  | stopRecorded _ => exact h.stopRecorded _ _
  | cancelled _ => exact h.quiet rfl rfl id id
  | reported _ => exact h.beside rfl rfl id id id
  | failing _ _ => exact h.quiet rfl rfl id id
  | threw _ _ _ => exact h.quiet rfl rfl (fun ho => by cases ho) fun _ => rfl
  | @launched c _ _ =>
    exact h.quiet rfl rfl (fun ho => absurd ho (afterStart_returning c)) fun _ => afterStart_inStart c
  | checked _ _ _ => exact h.quiet rfl rfl (fun ho => by cases ho) fun _ => rfl
  | abandoned _ _ _ => exact h.quiet rfl rfl (fun ho => by cases ho) fun _ => rfl
  | committed howner _ herror hstate => exact h.commits hp hf howner herror hstate
  | returned howner _ => exact h.returned howner
  | rolledBack _ _ => exact h.quiet rfl rfl (fun ho => by cases ho) fun _ => rfl
  | stops howner _ => exact h.quiet rfl rfl (fun ho => by cases ho) fun hin => by rw [howner] at hin; exact hin
  | @joined inStart c howner _ _ =>
    refine h.quiet rfl rfl (fun ho => absurd ho (afterStop_returning inStart c)) fun hin => ?_
    rw [howner] at hin
    rw [← afterStop_inStart inStart c] at hin
    exact hin
  | finished howner _ _ => exact h.finished howner _

/-! ### The owner comes back -/

/-- The owner goes on, or it or a callback takes the next step it is bound to take. -/
def Act.pending : Act → Bool
  | .own _ | .perform .owner | .perform (.callback _ _) => true
  | _ => false

/-- How many sections and calls the owner has before it, at most. -/
def Owner.left : Owner → ℕ
  | .idle => 0
  | .finishing _ => 1
  | .joining _ .remuxer => 2
  | .joining _ .encoder => 3
  | .joining _ .source => 4
  | .joining _ .scheduler => 5
  | .stopping _ => 6
  | .returning | .catching => 7
  | .committing => 8
  | .starting .scheduler => 9
  | .checking .scheduler => 10
  | .starting .source => 11
  | .checking .source => 12
  | .starting .remuxer => 13
  | .checking .remuxer => 14
  | .starting .encoder => 15
  | .checking .encoder => 16

/-- How many steps a thread has before it. -/
def Task.left : Task → ℕ
  | .fail _ => 4
  | .requestStop => 3
  | .cancel _ | .onError _ => 1

def left (tasks : List Task) : ℕ := (tasks.map Task.left).sum

/-- What the callbacks of a component have before them. -/
def callbacksLeft (s : LivePipeline) (c : Component) : ℕ :=
  ∑ n ∈ Finset.range (s.parts c).callers, left (s.todo (.callback c n))

def rank (s : LivePipeline) : ℕ :=
  5 * s.owner.left + left (s.todo .owner) +
    (s.callbacksLeft .encoder + s.callbacksLeft .remuxer + s.callbacksLeft .source + s.callbacksLeft .scheduler)

theorem bind_todo_self {tasks : List Task} : (s.bind thread tasks).todo thread = tasks := Function.update_self _ _ _

theorem bind_todo_of_ne {other : Thread} {tasks : List Task} (h : other ≠ thread) :
    (s.bind thread tasks).todo other = s.todo other := Function.update_of_ne h _ _

/-- What holds in every run. -/
structure Lawful (history : List Event) (s : LivePipeline) : Prop where
  placed : Placed s
  cancels : Cancels s
  failures : Failures history s
  answered : Answered history s

end LivePipeline

end MwStreamer
