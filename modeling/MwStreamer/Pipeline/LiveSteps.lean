import MwStreamer.Pipeline.LivePipeline

/-!
# What a step of the live pipeline can do

`Stepped` lists all steps of the pipeline; the invariants are proved from it and never unfold the step function.
-/

namespace MwStreamer

namespace LivePipeline

/-- The owner is where an exception of `Start` can be thrown. -/
def Owner.throws : Owner → Bool
  | .starting _ | .checking _ | .committing => true
  | _ => false

/-- Where the owner goes after a component has started. -/
def Owner.afterStart (component : Component) : Owner :=
  match component.after with
  | some next => .checking next
  | none => .committing

/-- Where the owner goes after a component has stopped. -/
def Owner.afterStop (inStart : Bool) (component : Component) : Owner :=
  match component.stopsBefore with
  | some next => .joining inStart next
  | none => .finishing inStart

inductive Stepped (s : LivePipeline) : List Event → LivePipeline → Prop where
  | same : Stepped s [] s
  | started (hidle : s.owner = .idle) (hstopped : s.started = false) :
      Stepped s [.started] { s with started := true, state := .starting, error := none, owner := .starting .encoder }
  | stop (hidle : s.owner = .idle) : Stepped s [] { s with owner := .stopping false }
  | requested {n : ℕ} (hfree : s.todo (.user n) = []) : Stepped s [] (s.bind (.user n) [.requestStop])
  | dropped {thread : Thread} {e : Exception} {rest : List Task} (htodo : s.todo thread = .fail e :: rest)
      (herror : s.error ≠ none) : Stepped s [] (s.bind thread rest)
  | failed {thread : Thread} {e : Exception} {rest : List Task} (htodo : s.todo thread = .fail e :: rest)
      (herror : s.error = none) : Stepped s [.failed e] ({ s with error := some e, state := .failed }.bind thread
        (.cancel .scheduler :: .cancel .source :: .onError e :: rest))
  | stopRecorded {thread : Thread} {rest : List Task} (htodo : s.todo thread = .requestStop :: rest) :
      Stepped s (if s.started then [.recorded] else [])
        ({ s with state := if s.started && s.state != State.failed then .stopping else s.state }.bind thread
          (.cancel .scheduler :: .cancel .source :: rest))
  | cancelled {thread : Thread} {component : Component} {rest : List Task}
      (htodo : s.todo thread = .cancel component :: rest) :
      Stepped s [] ((s.setPart component { s.parts component with cancelled := true }).bind thread rest)
  | reported {thread : Thread} {e : Exception} {rest : List Task} (htodo : s.todo thread = .onError e :: rest) :
      Stepped s [.reported e] (s.bind thread rest)
  | failing {component : Component} (hcalls : (s.parts component).running = true ∨ s.owner = .starting component)
      (e : Exception) : Stepped s []
        ((s.setPart component { s.parts component with callers := (s.parts component).callers + 1 }).bind
          (.callback component (s.parts component).callers) [.fail e])
  | threw (howner : s.owner.throws = true) (htodo : s.todo .owner = []) (e : Exception) : Stepped s [] (s.caught e)
  | launched {component : Component} (howner : s.owner = .starting component) (htodo : s.todo .owner = []) :
      Stepped s [] { s.setPart component { s.parts component with running := true, cancelled := false } with
        owner := .afterStart component }
  | checked {component : Component} (howner : s.owner = .checking component) (htodo : s.todo .owner = [])
      (herror : s.error = none) : Stepped s [] { s with owner := .starting component }
  | abandoned (howner : s.owner = .committing) (htodo : s.todo .owner = []) (hstate : s.state = .stopping) :
      Stepped s [] { s with owner := .stopping true }
  | committed (howner : s.owner = .committing) (htodo : s.todo .owner = []) (herror : s.error = none)
      (hstate : s.state ≠ .stopping) : Stepped s [.committed] { s with state := .running, owner := .returning }
  | returned (howner : s.owner = .returning) (htodo : s.todo .owner = []) :
      Stepped s [.returned true] { s with owner := .idle }
  | rolledBack (howner : s.owner = .catching) (htodo : s.todo .owner = []) :
      Stepped s [] { s with owner := .stopping true }
  | stops {inStart : Bool} (howner : s.owner = .stopping inStart) (htodo : s.todo .owner = []) :
      Stepped s [] ({ s with owner := .joining inStart .scheduler }.bind .owner [.requestStop])
  | joined {inStart : Bool} {component : Component} (howner : s.owner = .joining inStart component)
      (htodo : s.todo .owner = []) (hquiet : s.quiet component = true) :
      Stepped s [] { s.setPart component {} with owner := .afterStop inStart component }
  | finished {inStart : Bool} (howner : s.owner = .finishing inStart) (htodo : s.todo .owner = [])
      {state : State} (hstate : state = if s.error.isSome then .failed else .stopped) :
      Stepped s (.stopped state :: if inStart then [.returned false] else [])
        { s with started := false, state := state, owner := .idle }

variable {s s' : LivePipeline} {events : List Event} {thread : Thread}

theorem perform_stepped (h : s.perform thread = some (events, s')) : Stepped s events s' := by
  rw [perform] at h
  split at h
  · cases h
  · rename_i e rest htodo
    split at h
    · rename_i herror
      obtain ⟨rfl, rfl⟩ := Prod.mk.inj (Option.some.inj h)
      exact .dropped htodo (Option.isSome_iff_ne_none.mp herror)
    · rename_i herror
      obtain ⟨rfl, rfl⟩ := Prod.mk.inj (Option.some.inj h)
      exact .failed htodo (Option.not_isSome_iff_eq_none.mp herror)
  · rename_i rest htodo
    obtain ⟨rfl, rfl⟩ := Prod.mk.inj (Option.some.inj h)
    exact .stopRecorded htodo
  · rename_i component rest htodo
    obtain ⟨rfl, rfl⟩ := Prod.mk.inj (Option.some.inj h)
    exact .cancelled htodo
  · rename_i e rest htodo
    obtain ⟨rfl, rfl⟩ := Prod.mk.inj (Option.some.inj h)
    exact .reported htodo

theorem own_stepped {answer : Answer} (htodo : s.todo .owner = []) (h : s.own answer = some (events, s')) :
    Stepped s events s' := by
  unfold own at h
  split at h
  · cases h
  · rename_i component howner
    split at h
    · cases h
      exact .threw (by rw [howner]; rfl) htodo _
    · cases h
      exact .launched howner htodo
  · rename_i component howner
    split at h
    · cases h
      exact .threw (by rw [howner]; rfl) htodo _
    · rename_i herror
      cases h
      exact .checked howner htodo herror
  · rename_i howner
    split at h
    · cases h
      exact .threw (by rw [howner]; rfl) htodo _
    · rename_i herror
      split at h
      · rename_i hstate
        cases h
        exact .abandoned howner htodo hstate
      · rename_i hstate
        cases h
        exact .committed howner htodo herror hstate
  · rename_i howner
    cases h
    exact .returned howner htodo
  · rename_i howner
    cases h
    exact .rolledBack howner htodo
  · rename_i inStart howner
    cases h
    exact .stops howner htodo
  · rename_i inStart component howner
    split at h
    · rename_i hquiet
      cases h
      exact .joined howner htodo hquiet
    · cases h
  · rename_i inStart howner
    cases h
    exact .finished howner htodo rfl

/-- **What a step can do.** -/
theorem stepped {act : Act} (h : s.next act = some (events, s')) : Stepped s events s' := by
  cases act with
  | start =>
    rw [next] at h
    split at h
    · cases h
    · rename_i hidle
      rw [ne_eq, not_not] at hidle
      split at h
      · cases h
        exact .same
      · rename_i hstopped
        cases h
        exact .started hidle (by rwa [Bool.not_eq_true] at hstopped)
  | stop =>
    rw [next] at h
    split at h
    · rename_i hidle
      cases h
      exact .stop hidle
    · cases h
  | requestStop n =>
    rw [next] at h
    split at h
    · rename_i hfree
      cases h
      exact .requested (List.isEmpty_iff.mp hfree)
    · cases h
  | perform thread => exact perform_stepped h
  | own answer =>
    rw [next] at h
    split at h
    · rename_i htodo
      exact own_stepped (List.isEmpty_iff.mp htodo) h
    · cases h
  | fails component e =>
    rw [next] at h
    split at h
    · rename_i hcalls
      rw [Bool.or_eq_true, decide_eq_true_eq] at hcalls
      cases h
      exact .failing hcalls e
    · cases h

end LivePipeline

end MwStreamer
