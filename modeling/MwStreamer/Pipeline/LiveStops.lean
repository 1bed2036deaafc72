import MwStreamer.Pipeline.LiveSteps

/-!
# Stops and failures of the live pipeline

`Placed` says which thread may be bound to what, and which components are there.  On it rest the accounts of a run:
a stop reaches the source and the scheduler, whichever comes first, and the first failure is the only one that is
recorded and it is reported once.
-/

namespace MwStreamer

namespace LivePipeline

/-! ### Who is where -/

/-- The steps of a `RequestStop`. -/
def Task.stops : Task → Bool
  | .requestStop | .cancel _ => true
  | _ => false

def Task.report? : Task → Option Exception
  | .onError e => some e
  | _ => none

/-- The owner is bound to nothing there. -/
def Owner.bare : Owner → Bool
  | .catching | .joining _ .scheduler => false
  | _ => true

/-- The owner is in a `Start`. -/
def Owner.inStart : Owner → Bool
  | .starting _ | .checking _ | .committing | .returning | .catching => true
  | .stopping inStart | .joining inStart _ | .finishing inStart => inStart
  | .idle => false

/-- The place of a component in a `Stop`. -/
def Component.place : Component → ℕ
  | .scheduler => 0
  | .source => 1
  | .encoder => 2
  | .remuxer => 3

/-- The owner has stopped the component in its `Stop`. -/
def Owner.hasStopped : Owner → Component → Bool
  | .joining _ next, component => component.place < next.place
  | .finishing _, _ => true
  | _, _ => false

structure Placed (s : LivePipeline) : Prop where
  fresh : ∀ c n, (s.parts c).callers ≤ n → s.todo (.callback c n) = []
  users : ∀ n, ∀ task ∈ s.todo (.user n), task.stops = true
  bare : s.owner.bare = true → s.todo .owner = []
  joining : ∀ inStart c, s.owner = .joining inStart c → ∀ task ∈ s.todo .owner, task.stops = true
  began : s.owner.inStart = true → s.started = true
  down : ∀ c, s.owner.hasStopped c = true ∨ s.started = false → (s.parts c).running = false ∧ (s.parts c).callers = 0
  told : s.error ≠ none ↔ s.state = .failed

variable {s s' : LivePipeline} {events : List Event} {thread : Thread} {history : List Event}

/-- A thread is bound to other steps. -/
theorem Placed.bind (h : Placed s) {tasks : List Task}
    (hfresh : ∀ c n, thread = .callback c n → (s.parts c).callers ≤ n → tasks = [])
    (huser : ∀ n, thread = .user n → ∀ task ∈ tasks, task.stops = true)
    (howner : thread = .owner → (s.owner.bare = true → tasks = []) ∧
      ∀ inStart c, s.owner = .joining inStart c → ∀ task ∈ tasks, task.stops = true) :
    Placed (s.bind thread tasks) where
  fresh c n hn := Threads.at_update (P := (· = [])) (h.fresh c n hn) fun heq => hfresh c n heq.symm hn
  users n := Threads.at_update (P := (∀ task ∈ ·, Task.stops task = true)) (h.users n) fun heq => huser n heq.symm
  bare hbare := Threads.at_update (P := (· = [])) (h.bare hbare) fun heq => (howner heq.symm).1 hbare
  joining inStart c hjoining :=
    Threads.at_update (P := (∀ task ∈ ·, Task.stops task = true)) (h.joining inStart c hjoining)
      fun heq => (howner heq.symm).2 inStart c hjoining
  began := h.began
  down := h.down
  told := h.told

/-- A thread takes the first of its steps. -/
theorem Placed.perform (h : Placed s) {task : Task} {rest tasks : List Task} (htodo : s.todo thread = task :: rest)
    (hnew : task.stops = true → ∀ m ∈ tasks, m ∈ rest ∨ m.stops = true) : Placed (s.bind thread tasks) := by
  have hne : s.todo thread ≠ [] := by
    rw [htodo]
    exact List.cons_ne_nil _ _
  have hkeeps : (∀ m ∈ s.todo thread, m.stops = true) → ∀ m ∈ tasks, m.stops = true := Threads.all_of_take htodo hnew
  refine h.bind (fun c n heq hn => ?_) (fun n heq => ?_) fun heq => ⟨fun hbare => ?_, fun inStart c hjoining => ?_⟩
  · subst heq
    exact absurd (h.fresh c n hn) hne
  · subst heq
    exact hkeeps (h.users n)
  · subst heq
    exact absurd (h.bare hbare) hne
  · subst heq
    exact hkeeps (h.joining inStart c hjoining)

/-- The owner goes on, bound to nothing. -/
theorem Placed.own (h : Placed s) (htodo : s.todo .owner = []) {owner : Owner}
    (hbegan : owner.inStart = true → s.started = true)
    (hdown : ∀ c, owner.hasStopped c = true → (s.parts c).running = false ∧ (s.parts c).callers = 0) :
    Placed { s with owner := owner } where
  fresh := h.fresh
  users := h.users
  bare _ := htodo
  joining _ _ _ task htask := by
    change task ∈ s.todo .owner at htask
    rw [htodo] at htask
    cases htask
  began := hbegan
  down c hc := by
    rcases hc with hc | hc
    · exact hdown c hc
    · exact h.down c (.inr hc)
  told := h.told

/-- A component changes where it may. -/
theorem Placed.setPart (h : Placed s) {c : Component} {part : Part}
    (hcallers : ∀ n, part.callers ≤ n → s.todo (.callback c n) = [])
    (hdown : s.owner.hasStopped c = true ∨ s.started = false → part.running = false ∧ part.callers = 0) :
    Placed (s.setPart c part) where
  fresh d n hn := by
    change (Function.update s.parts c part d).callers ≤ n at hn
    by_cases heq : d = c
    · subst heq
      rw [Function.update_self] at hn
      exact hcallers n hn
    · rw [Function.update_of_ne heq] at hn
      exact h.fresh d n hn
  users := h.users
  bare := h.bare
  joining := h.joining
  began := h.began
  down d hd := by
    show (Function.update s.parts c part d).running = false ∧ (Function.update s.parts c part d).callers = 0
    by_cases heq : d = c
    · subst heq
      rw [Function.update_self]
      exact hdown hd
    · rw [Function.update_of_ne heq]
      exact h.down d hd
  told := h.told

theorem quiet_iff {c : Component} :
    s.quiet c = true ↔ ∀ n, n < (s.parts c).callers → s.todo (.callback c n) = [] := by
  rw [quiet, List.all_eq_true]
  constructor
  · intro h n hn
    exact List.isEmpty_iff.mp (h n (List.mem_range.mpr hn))
  · intro h n hn
    exact List.isEmpty_iff.mpr (h n (List.mem_range.mp hn))

/-- Where all callbacks of a component are over, none has anything left to do. -/
theorem Placed.silent (h : Placed s) {c : Component} (hquiet : s.quiet c = true) (n : ℕ) :
    s.todo (.callback c n) = [] := by
  by_cases hn : n < (s.parts c).callers
  · exact quiet_iff.mp hquiet n hn
  · exact h.fresh c n (Nat.le_of_not_lt hn)

theorem afterStart_inStart (c : Component) : (Owner.afterStart c).inStart = true := by cases c <;> rfl

theorem afterStart_hasStopped (c d : Component) : (Owner.afterStart c).hasStopped d = false := by cases c <;> rfl

theorem afterStop_inStart (inStart : Bool) (c : Component) : (Owner.afterStop inStart c).inStart = inStart := by
  cases c <;> rfl

theorem afterStop_hasStopped {inStart : Bool} {c d : Component} (hd : d ≠ c)
    (h : (Owner.afterStop inStart c).hasStopped d = true) : (Owner.joining inStart c).hasStopped d = true := by
  cases c <;> cases d <;> first | (cases h; done) | rfl | exact absurd rfl hd

theorem Owner.throws_inStart {owner : Owner} (h : owner.throws = true) : owner.inStart = true := by
  cases owner <;> first | rfl | cases h

theorem Placed.step (h : Placed s) (hstep : Stepped s events s') : Placed s' := by
  cases hstep with
  | same => exact h
  | started hidle hstopped =>
    have hnone : s.todo .owner = [] := h.bare (by rw [hidle]; rfl)
    refine ⟨h.fresh, h.users, fun _ => hnone, (fun _ _ hcontra => by cases hcontra), fun _ => rfl, ?_, ?_⟩
    · intro c hc
      rcases hc with hc | hc
      · cases hc
      · cases hc
    · exact ⟨fun hcontra => absurd rfl hcontra, (fun hcontra => by cases hcontra)⟩
  | stop hidle =>
    exact h.own (h.bare (by rw [hidle]; rfl)) (fun hcontra => by cases hcontra) (fun c hcontra => by cases hcontra)
  | @requested n hfree =>
    refine h.bind (fun c n heq => by cases heq) (fun _ _ task htask => ?_) (fun heq => by cases heq)
    obtain rfl := List.mem_singleton.mp htask
    rfl
  | dropped htodo _ => exact h.perform htodo (fun hcontra => by cases hcontra)
  | @failed t e rest htodo herror =>
    have hfailed : Placed { s with error := some e, state := .failed } :=
      ⟨h.fresh, h.users, h.bare, h.joining, h.began, h.down, fun _ => rfl, fun _ => by simp⟩
    exact hfailed.perform htodo (fun hcontra => by cases hcontra)
  | @stopRecorded t rest htodo =>
    have htold : Placed { s with state := if s.started && s.state != State.failed then .stopping else s.state } := by
      refine ⟨h.fresh, h.users, h.bare, h.joining, h.began, h.down, ?_⟩
      show s.error ≠ none ↔ (if s.started && s.state != State.failed then State.stopping else s.state) = .failed
      rw [h.told]
      cases s.state <;> cases s.started <;> simp
    refine htold.perform htodo fun _ m hm => ?_
    rcases List.mem_cons.mp hm with rfl | hm
    · exact .inr rfl
    rcases List.mem_cons.mp hm with rfl | hm
    · exact .inr rfl
    · exact .inl hm
  | @cancelled t c rest htodo =>
    have hcancelled : Placed (s.setPart c { s.parts c with cancelled := true }) :=
      h.setPart (fun n hn => h.fresh c n hn) fun hdown => h.down c hdown
    exact hcancelled.perform htodo fun _ m hm => .inl hm
  | reported htodo => exact h.perform htodo fun _ m hm => .inl hm
  | @failing c hcalls e =>
    have hup : ¬(s.owner.hasStopped c = true ∨ s.started = false) := by
      intro hdown
      rcases hcalls with hrunning | howner
      · cases hrunning.symm.trans (h.down c hdown).1
      · rcases hdown with hstopped | hstopped
        · rw [howner] at hstopped
          cases hstopped
        · cases hstopped.symm.trans (h.began (by rw [howner]; rfl))
    have hcalled : Placed (s.setPart c { s.parts c with callers := (s.parts c).callers + 1 }) :=
      h.setPart (fun n hn => h.fresh c n (Nat.le_of_succ_le hn)) fun hdown => absurd hdown hup
    refine hcalled.bind (fun d n heq hn => ?_) (fun n heq => by cases heq) (fun heq => by cases heq)
    obtain ⟨rfl, rfl⟩ := Thread.callback.inj heq
    change (Function.update s.parts c _ c).callers ≤ (s.parts c).callers at hn
    rw [Function.update_self] at hn
    exact absurd hn (Nat.not_succ_le_self _)
  | threw howner htodo e =>
    have hcatching : Placed { s with owner := .catching } :=
      h.own htodo (fun _ => h.began (Owner.throws_inStart howner)) (fun c hcontra => by cases hcontra)
    refine hcatching.bind (fun c n heq => by cases heq) (fun n heq => by cases heq) fun _ => ⟨?_, ?_⟩
    · exact (fun hcontra => by cases hcontra)
    · exact (fun inStart c hcontra => by cases hcontra)
  | @launched c howner htodo =>
    have hstarted : s.started = true := h.began (by rw [howner]; rfl)
    have hlaunched : Placed (s.setPart c { s.parts c with running := true, cancelled := false }) := by
      refine h.setPart (fun n hn => h.fresh c n hn) fun hdown => ?_
      rcases hdown with hstopped | hstopped
      · rw [howner] at hstopped
        cases hstopped
      · cases hstopped.symm.trans hstarted
    refine hlaunched.own htodo (fun _ => hstarted) fun d hd => ?_
    rw [afterStart_hasStopped] at hd
    cases hd
  | checked howner htodo _ =>
    exact h.own htodo (fun _ => h.began (by rw [howner]; rfl)) (fun c hcontra => by cases hcontra)
  | abandoned howner htodo _ =>
    exact h.own htodo (fun _ => h.began (by rw [howner]; rfl)) (fun c hcontra => by cases hcontra)
  | committed howner htodo herror _ =>
    have hrunning : Placed { s with state := .running } :=
      ⟨h.fresh, h.users, h.bare, h.joining, h.began, h.down, fun hcontra => absurd herror hcontra,
        (fun hcontra => by cases hcontra)⟩
    exact hrunning.own htodo (fun _ => h.began (by rw [howner]; rfl)) (fun c hcontra => by cases hcontra)
  | returned howner htodo => exact h.own htodo (fun hcontra => by cases hcontra) (fun c hcontra => by cases hcontra)
  | rolledBack howner htodo =>
    exact h.own htodo (fun _ => h.began (by rw [howner]; rfl)) (fun c hcontra => by cases hcontra)
  | @stops inStart howner htodo =>
    have hjoining : Placed { s with owner := .joining inStart .scheduler } := by
      refine h.own htodo (fun hin => h.began (by rw [howner]; exact hin)) fun c hc => ?_
      cases c <;> cases hc
    refine hjoining.bind (fun c n heq => by cases heq) (fun n heq => by cases heq) fun _ => ⟨?_, ?_⟩
    · exact (fun hcontra => by cases hcontra)
    · intro _ _ _ task htask
      obtain rfl := List.mem_singleton.mp htask
      rfl
  | @joined inStart c howner htodo hquiet =>
    have hstopped : Placed (s.setPart c {}) :=
      h.setPart (fun n _ => h.silent hquiet n) fun _ => ⟨rfl, rfl⟩
    refine hstopped.own htodo (fun hin => h.began ?_) fun d hd => ?_
    · rw [afterStop_inStart] at hin
      rw [howner]
      exact hin
    · show (Function.update s.parts c {} d).running = false ∧ (Function.update s.parts c {} d).callers = 0
      by_cases heq : d = c
      · subst heq
        rw [Function.update_self]
        exact ⟨rfl, rfl⟩
      · rw [Function.update_of_ne heq]
        exact h.down d (.inl (by rw [howner]; exact afterStop_hasStopped heq hd))
  | @finished inStart howner htodo state hstate =>
    refine ⟨h.fresh, h.users, fun _ => htodo, (fun _ _ hcontra => by cases hcontra), (fun hcontra => by cases hcontra),
      fun c _ => h.down c (.inl (by rw [howner]; rfl)), ?_⟩
    show s.error ≠ none ↔ state = .failed
    rw [hstate]
    cases s.error <;> simp

/-! ### A stop reaches the source and the scheduler -/

/-- The owner will not look for a stop or a failure any more. -/
def Owner.settled : Owner → Bool
  | .idle | .returning | .joining _ _ | .finishing _ => true
  | _ => false

/-- The step cancels the component, or leads to one that does. -/
def Task.leadsTo (c : Component) (task : Task) : Prop := task = .requestStop ∨ task = .cancel c

/-- A component that was started in spite of a stop is going to be cancelled. -/
def Cancels (s : LivePipeline) : Prop :=
  s.state = .stopping ∨ s.state = .failed → s.owner.settled = true → ∀ c, c.cancels = true →
    (s.parts c).running = true → (s.parts c).cancelled = false → Threads.Owed (Task.leadsTo c) s.todo

theorem Cancels.frame (h : Cancels s) (hstate : s'.state = .stopping ∨ s'.state = .failed →
      s.state = .stopping ∨ s.state = .failed)
    (howner : s'.owner.settled = true → s.owner.settled = true)
    (hparts : ∀ c, (s'.parts c).running = true → (s'.parts c).cancelled = false →
      (s.parts c).running = true ∧ (s.parts c).cancelled = false)
    (howed : ∀ c, c.cancels = true → (s'.parts c).cancelled = false → Threads.Owed (Task.leadsTo c) s.todo →
      Threads.Owed (Task.leadsTo c) s'.todo) :
    Cancels s' := by
  intro htold hsettled c hc hrunning hcancelled
  obtain ⟨hrunning', hcancelled'⟩ := hparts c hrunning hcancelled
  exact howed c hc hcancelled (h (hstate htold) (howner hsettled) c hc hrunning' hcancelled')

/-- The owner has yet to look. -/
theorem cancels_unsettled (howner : s.owner.settled = false) : Cancels s :=
  fun _ hsettled => absurd (howner.symm.trans hsettled) (by decide)

/-- Both components are going to be cancelled. -/
theorem owed_both {tasks : List Task} {c : Component} (hc : c.cancels = true)
    (htasks : .cancel .scheduler ∈ tasks ∧ .cancel .source ∈ tasks) :
    Threads.Owed (Task.leadsTo c) (Function.update s.todo thread tasks) := by
  cases c with
  | encoder => cases hc
  | remuxer => cases hc
  | source => exact .of_mem htasks.2 (.inr rfl)
  | scheduler => exact .of_mem htasks.1 (.inr rfl)

theorem Cancels.step (hp : Placed s) (h : Cancels s) (hstep : Stepped s events s') : Cancels s' := by
  cases hstep with
  | same => exact h
  | started _ _ => exact cancels_unsettled rfl
  | stop _ => exact cancels_unsettled rfl
  | requested hfree => exact h.frame id id (fun _ => And.intro) fun _ _ _ => Threads.Owed.fresh hfree
  | dropped htodo _ =>
    exact h.frame id id (fun _ => And.intro) fun _ _ _ howed =>
      howed.take htodo (fun _ hm => hm) (by simp [Task.leadsTo])
  | failed htodo _ =>
    exact fun _ _ c hc _ _ => owed_both (s := s) hc
      ⟨List.mem_cons_self, List.mem_cons_of_mem _ List.mem_cons_self⟩
  | stopRecorded htodo =>
    exact fun _ _ c hc _ _ => owed_both (s := s) hc
      ⟨List.mem_cons_self, List.mem_cons_of_mem _ List.mem_cons_self⟩
  | @cancelled t d rest htodo =>
    refine h.frame id id (fun c hrunning hcancelled => ?_) fun c _ hcancelled howed => ?_
    · change (Function.update s.parts d _ c).running = true at hrunning
      change (Function.update s.parts d _ c).cancelled = false at hcancelled
      by_cases heq : c = d
      · subst heq
        rw [Function.update_self] at hcancelled
        cases hcancelled
      · rw [Function.update_of_ne heq] at hrunning hcancelled
        exact ⟨hrunning, hcancelled⟩
    · change (Function.update s.parts d _ c).cancelled = false at hcancelled
      refine howed.take htodo (fun _ hm => hm) fun hleads => ?_
      rcases hleads with hleads | hleads
      · cases hleads
      · obtain rfl := Task.cancel.inj hleads
        rw [Function.update_self] at hcancelled
        cases hcancelled
  | reported htodo =>
    exact h.frame id id (fun _ => And.intro) fun _ _ _ howed =>
      howed.take htodo (fun _ hm => hm) (by simp [Task.leadsTo])
  | @failing d _ e =>
    refine h.frame id id (fun c hrunning hcancelled => ?_) fun c _ _ => Threads.Owed.fresh (hp.fresh d _ le_rfl)
    change (Function.update s.parts d _ c).running = true at hrunning
    change (Function.update s.parts d _ c).cancelled = false at hcancelled
    by_cases heq : c = d
    · subst heq
      rw [Function.update_self] at hrunning hcancelled
      exact ⟨hrunning, hcancelled⟩
    · rw [Function.update_of_ne heq] at hrunning hcancelled
      exact ⟨hrunning, hcancelled⟩
  | threw _ _ _ => exact cancels_unsettled rfl
  | @launched d _ _ => exact cancels_unsettled (by cases d <;> rfl)
  | checked _ _ _ => exact cancels_unsettled rfl
  | abandoned _ _ _ => exact cancels_unsettled rfl
  | committed _ _ _ _ => exact (fun htold => by rcases htold with htold | htold <;> cases htold)
  | returned howner _ => exact h.frame id (fun _ => by rw [howner]; rfl) (fun _ => And.intro) fun _ _ _ => id
  | rolledBack _ _ => exact cancels_unsettled rfl
  | stops _ _ => exact fun _ _ c _ _ _ => .of_mem List.mem_cons_self (.inl rfl)
  | @joined inStart d howner _ _ =>
    refine h.frame id (fun _ => by rw [howner]; rfl) (fun c hrunning hcancelled => ?_) fun _ _ _ => id
    change (Function.update s.parts d _ c).running = true at hrunning
    change (Function.update s.parts d _ c).cancelled = false at hcancelled
    by_cases heq : c = d
    · subst heq
      rw [Function.update_self] at hrunning
      cases hrunning
    · rw [Function.update_of_ne heq] at hrunning hcancelled
      exact ⟨hrunning, hcancelled⟩
  | finished howner _ _ =>
    -- Everything has been stopped.
    intro _ _ c _ hrunning _
    exact absurd ((hp.down c (.inl (by rw [howner]; rfl))).1.symm.trans hrunning) (by decide)

/-! ### The first failure -/

def Event.kind : Event → Threads.Kind Exception
  | .started => .opens
  | .failed e => .failed e
  | .reported e => .reported e
  | _ => .aside

/-- A new `Start` begins. -/
def Event.opens (e : Event) : Bool := e.kind.isOpens

def Event.failed? (e : Event) : Option Exception := e.kind.failed?

/-- The events since the last `Start`. -/
def thisRun (history : List Event) : List Event := Sessions.latest Event.opens history

/-- The failures recorded since the last `Start`. -/
def failures (history : List Event) : List Exception := Threads.failures Event.kind history

/-- The calls of `OnError` since the last `Start`. -/
def reports (history : List Event) : List Exception := Threads.reports Event.kind history

/-- The account of the failures since the last `Start`. -/
def Failures (history : List Event) (s : LivePipeline) : Prop :=
  Threads.Account Event.kind Task.report? history s.todo s.error

/-- No thread has a failure to report where the pipeline is stopped. -/
theorem Placed.unreported (hp : Placed s) (hstopped : s.started = false) (t : Thread) :
    (s.todo t).filterMap Task.report? = [] := by
  have hstops : ∀ {tasks : List Task}, (∀ task ∈ tasks, task.stops = true) → tasks.filterMap Task.report? = [] := by
    intro tasks htasks
    refine List.filterMap_eq_nil_iff.mpr fun task htask => ?_
    cases task with
    | onError _ => cases htasks _ htask
    | _ => rfl
  cases t with
  | owner =>
    cases howner : s.owner with
    | catching => cases hstopped.symm.trans (hp.began (by rw [howner]; rfl))
    | joining inStart c => exact hstops (hp.joining inStart c howner)
    | _ => rw [hp.bare (by rw [howner]; rfl), List.filterMap_nil]
  | callback c n => rw [hp.fresh c n (by rw [(hp.down c (.inr hstopped)).2]; exact Nat.zero_le n), List.filterMap_nil]
  | user n => exact hstops (hp.users n)

theorem Failures.step (hp : Placed s) (h : Failures history s) (hstep : Stepped s events s') :
    Failures (history ++ events) s' := by
  cases hstep with
  | same => exact h.same rfl rfl rfl
  | started _ hstopped => exact Threads.Account.opened rfl (hp.unreported hstopped)
  | stop _ => exact h.same rfl rfl rfl
  | requested hfree => exact h.bind rfl _ rfl rfl (Threads.reports_fresh hfree rfl)
  | dropped htodo _ => exact h.bind rfl _ rfl rfl (Threads.reports_take htodo rfl rfl)
  | @failed t e rest htodo herror =>
    rw [Failures, herror] at h
    have hnone : rest.filterMap Task.report? = [] := by
      have ht := h.nothing t
      rw [htodo] at ht
      exact ht
    refine Threads.Account.record h rfl ?_
    show e :: rest.filterMap Task.report? = [e]
    rw [hnone]
  | stopRecorded htodo =>
    refine h.bind ?_ _ rfl rfl (Threads.reports_take htodo rfl rfl)
    split
    · rfl
    · rfl
  | cancelled htodo => exact h.bind rfl _ rfl rfl (Threads.reports_take htodo rfl rfl)
  | @reported t e rest htodo =>
    refine Threads.Account.report h rfl ?_
    rw [htodo]
    rfl
  | @failing c _ e => exact h.bind rfl _ rfl rfl (Threads.reports_fresh (hp.fresh c _ le_rfl) rfl)
  | threw _ htodo e => exact h.bind rfl .owner rfl rfl (Threads.reports_fresh htodo rfl)
  | launched _ _ => exact h.same rfl rfl rfl
  | checked _ _ _ => exact h.same rfl rfl rfl
  | abandoned _ _ _ => exact h.same rfl rfl rfl
  | committed _ _ _ _ => exact h.same rfl rfl rfl
  | returned _ _ => exact h.same rfl rfl rfl
  | rolledBack _ _ => exact h.same rfl rfl rfl
  | stops _ htodo => exact h.bind rfl .owner rfl rfl (Threads.reports_fresh htodo rfl)
  | joined _ _ _ => exact h.same rfl rfl rfl
  | @finished inStart _ _ state _ =>
    refine h.same ?_ rfl rfl
    cases inStart with
    | true => rfl
    | false => rfl

end LivePipeline

end MwStreamer
