import MwStreamer.Pipeline.RemuxSteps

/-!
# Who is where in the remux pipeline

`Bound` says which thread may be bound to what, `Staged` when the workers, the input and the outputs are there.
Both hold in every state that can be reached; the laws about stops, failures and the end of a run rest on them.
-/

namespace MwStreamer

namespace RemuxPipeline

/-! ### What threads are bound to -/

/-- The steps of a `RequestStop`. -/
def Task.stops : Task → Bool
  | .requestStop | .cancelInput | .drain _ => true
  | _ => false

def Task.report? : Task → Option Exception
  | .onError e => some e
  | _ => none

/-- The owner has nothing left to do in its call. -/
def Owner.resting : Owner → Bool
  | .idle | .ensuring | .launchingReaper | .launchingWorker | .closing | .joiningReaper | .finishing => true
  | _ => false

/-- The owner waits in a `Stop`. -/
def Owner.joining : Owner → Bool
  | .joiningWorker | .joiningInput => true
  | _ => false

structure Bound (s : RemuxPipeline) : Prop where
  users : ∀ n, ∀ task ∈ s.todo (.user n), task.stops = true
  workerless : (∀ w, s.worker = some w → w.pc = .done) → s.todo .worker = []
  silent : s.input.running = false → s.todo .input = []
  mute : ∀ id, (s.outputs id).live = false → s.todo (.output id) = []
  resting : s.owner.resting = true → s.todo .owner = []
  joining : s.owner.joining = true → ∀ task ∈ s.todo .owner, task.stops = true

variable {s s' : RemuxPipeline} {events : List Event} {worker : Worker} {thread : Thread}

/-- `Bound` looks at a part of the state only. -/
theorem Bound.same (h : Bound s) (htodo : s'.todo = s.todo) (hworker : s'.worker = s.worker)
    (hrunning : s'.input.running = s.input.running) (hlive : ∀ id, (s'.outputs id).live = (s.outputs id).live)
    (howner : s'.owner = s.owner) : Bound s' where
  users := htodo ▸ h.users
  workerless := htodo ▸ hworker ▸ h.workerless
  silent := htodo ▸ hrunning ▸ h.silent
  mute id hid := by
    rw [htodo]
    exact h.mute id ((hlive id).symm.trans hid)
  resting := htodo ▸ howner ▸ h.resting
  joining := htodo ▸ howner ▸ h.joining

/-- A thread is bound to other steps. -/
theorem Bound.bind (h : Bound s) {tasks : List Task}
    (huser : ∀ n, thread = .user n → ∀ task ∈ tasks, task.stops = true)
    (hworker : thread = .worker → ∃ w, s.worker = some w ∧ w.pc ≠ .done)
    (hinput : thread = .input → s.input.running = true)
    (houtput : ∀ id, thread = .output id → (s.outputs id).live = true)
    (howner : thread = .owner → s.owner.resting = false ∧
      (s.owner.joining = true → ∀ task ∈ tasks, task.stops = true)) : Bound (s.bind thread tasks) where
  users n := Threads.at_update (P := (∀ task ∈ ·, Task.stops task = true)) (h.users n) fun heq => huser n heq.symm
  workerless hdone := by
    refine Threads.at_update (P := (· = [])) (h.workerless hdone) fun heq => ?_
    obtain ⟨w, hw, hne⟩ := hworker heq.symm
    exact absurd (hdone w hw) hne
  silent hrunning :=
    Threads.at_update (P := (· = [])) (h.silent hrunning)
      fun heq => absurd ((hinput heq.symm).symm.trans hrunning) (by decide)
  mute id hid :=
    Threads.at_update (P := (· = [])) (h.mute id hid)
      fun heq => absurd ((houtput id heq.symm).symm.trans hid) (by decide)
  resting hresting :=
    Threads.at_update (P := (· = [])) (h.resting hresting)
      fun heq => absurd ((howner heq.symm).1.symm.trans hresting) (by decide)
  joining hjoining :=
    Threads.at_update (P := (∀ task ∈ ·, Task.stops task = true)) (h.joining hjoining)
      fun heq => (howner heq.symm).2 hjoining

/-- A thread takes the first of its steps. -/
theorem Bound.perform (h : Bound s) {task : Task} {rest tasks : List Task} (htodo : s.todo thread = task :: rest)
    (hnew : task.stops = true → ∀ m ∈ tasks, m ∈ rest ∨ m.stops = true) : Bound (s.bind thread tasks) := by
  have hne : s.todo thread ≠ [] := by
    rw [htodo]
    exact List.cons_ne_nil _ _
  have hkeeps : (∀ m ∈ s.todo thread, m.stops = true) → ∀ m ∈ tasks, m.stops = true := Threads.all_of_take htodo hnew
  refine h.bind ?_ ?_ ?_ ?_ ?_
  · rintro n rfl
    exact hkeeps (h.users n)
  · rintro rfl
    by_contra hnone
    refine hne (h.workerless fun w hw => ?_)
    by_contra hdone
    exact hnone ⟨w, hw, hdone⟩
  · rintro rfl
    by_contra hrunning
    exact hne (h.silent (by rwa [Bool.not_eq_true] at hrunning))
  · rintro id rfl
    by_contra hlive
    exact hne (h.mute id (by rwa [Bool.not_eq_true] at hlive))
  · rintro rfl
    refine ⟨?_, fun hjoining => hkeeps (h.joining hjoining)⟩
    cases hresting : s.owner.resting with
    | false => rfl
    | true => exact absurd (h.resting hresting) hne

/-- The packet worker goes on, bound to nothing. -/
theorem Bound.work (h : Bound s) {worker' : Worker} (htodo : s.todo .worker = []) :
    Bound { s with worker := some worker' } :=
  ⟨h.users, fun _ => htodo, h.silent, h.mute, h.resting, h.joining⟩

/-- The owner goes on, bound to nothing. -/
theorem Bound.own (h : Bound s) {owner : Owner} (htodo : s.todo .owner = []) : Bound { s with owner := owner } := by
  refine ⟨h.users, h.workerless, h.silent, h.mute, fun _ => htodo, fun _ task htask => ?_⟩
  have hnil : task ∈ ([] : List Task) := htodo ▸ htask
  cases hnil

/-- An output changes that is not silenced while it has something to do. -/
theorem Bound.setOutput (h : Bound s) {id : ℕ} {output : Output}
    (hquiet : output.live = false → s.todo (.output id) = []) : Bound (s.setOutput id output) := by
  refine ⟨h.users, h.workerless, h.silent, fun i hi => ?_, h.resting, h.joining⟩
  change (Function.update s.outputs id output i).live = false at hi
  show s.todo (.output i) = []
  by_cases heq : i = id
  · subst heq
    rw [Function.update_self] at hi
    exact hquiet hi
  · rw [Function.update_of_ne heq] at hi
    exact h.mute i hi

theorem Bound.closes (h : Bound s) (hcloses : Closes s events s') : Bound s' := by
  cases hcloses with
  | absent _ => exact h
  | retires _ _ => exact h.same rfl rfl rfl (fun _ => rfl) rfl
  | destroys hcurrent hsession hquiet =>
    exact Bound.setOutput (s := { s with current := none }) (h.same rfl rfl rfl (fun _ => rfl) rfl) fun _ => hquiet

theorem Closes.todo (h : Closes s events s') : s'.todo = s.todo := by cases h <;> rfl
theorem Closes.worker_eq (h : Closes s events s') : s'.worker = s.worker := by cases h <;> rfl
theorem Closes.running_eq (h : Closes s events s') : s'.input.running = s.input.running := by cases h <;> rfl
theorem Closes.workerDone_eq (h : Closes s events s') : s'.workerDone = s.workerDone := by cases h <;> rfl

theorem ensureRemuxer_todo : s.ensureRemuxer.todo = s.todo := by
  rw [ensureRemuxer]
  split <;> rfl

theorem Bound.ensure (h : Bound s) (hfresh : (s.outputs s.made).live = false) : Bound s.ensureRemuxer := by
  rw [ensureRemuxer]
  split
  · exact h
  · exact Bound.setOutput (s := { s with current := some s.made, made := s.made + 1 })
      (h.same rfl rfl rfl (fun _ => rfl) rfl) fun _ => h.mute _ hfresh

/-- The packet worker goes on, bound to something. -/
theorem Bound.workBinds (h : Bound s) {worker' : Worker} {tasks : List Task} (htodo : s.todo .worker = [])
    (hpc : worker'.pc ≠ .done) : Bound ({ s with worker := some worker' }.bind .worker tasks) :=
  Bound.bind (h.work htodo) nofun (fun _ => ⟨worker', rfl, hpc⟩) nofun nofun nofun

/-- The owner waits in a `Stop`, bound to a step of a `RequestStop`. -/
theorem Bound.ownerStops (h : Bound s) {owner : Owner} {task : Task} (htodo : s.todo .owner = [])
    (howner : owner.resting = false) (hstops : task.stops = true) :
    Bound ({ s with owner := owner }.bind .owner [task]) :=
  Bound.bind (h.own htodo) nofun nofun nofun nofun
    fun _ => ⟨howner, fun _ _ hm => List.mem_singleton.mp hm ▸ hstops⟩

theorem Bound.step (h : Bound s) (hfresh : (s.outputs s.made).live = false) (hstep : Stepped s events s') :
    Bound s' := by
  cases hstep with
  | same => exact h
  | started hidle _ =>
    exact Bound.own (s := { s with
        started := true, stopping := false, ended := false, hasMedia := false, workerDone := false
        state := .starting, error := none }) (h.same rfl rfl rfl (fun _ => rfl) rfl)
      (h.resting (by rw [hidle]; rfl))
  | stop hidle => exact h.ownerStops (h.resting (by rw [hidle]; rfl)) rfl rfl
  | requested hfree => exact h.bind (fun _ _ task htask => List.mem_singleton.mp htask ▸ rfl) nofun nofun nofun nofun
  | dropped htodo _ => exact h.perform htodo nofun
  | @failed t e rest htodo _ _ =>
    exact Bound.perform (s := { s with error := some e, state := .failed }) (h.same rfl rfl rfl (fun _ => rfl) rfl)
      htodo nofun
  | @stopRecorded t rest htodo =>
    refine Bound.perform (s := { s with
        stopping := true, state := if s.started && s.error.isNone && !s.ended then .stopping else s.state })
      (h.same rfl rfl rfl (fun _ => rfl) rfl) htodo fun _ m hm => ?_
    rcases List.mem_cons.mp hm with rfl | hm
    · exact .inr rfl
    · rcases List.mem_append.mp hm with hm | hm
      · obtain ⟨id, -, rfl⟩ := List.mem_map.mp hm
        exact .inr rfl
      · exact .inl hm
  | @inputCancelled t rest htodo =>
    exact Bound.perform (s := { s with input := { s.input with cancelled := true } })
      (h.same rfl rfl rfl (fun _ => rfl) rfl) htodo fun _ m hm => .inl hm
  | @drained t id rest htodo =>
    refine Bound.perform (s := s.setOutput id { s.outputs id with draining := true })
      (h.setOutput fun hlive => h.mute id hlive) htodo fun _ m hm => .inl hm
  | @inputChanged t state rest htodo =>
    exact Bound.perform (s := { s with state := if s.waits state then .waitingRetry else s.state })
      (h.same rfl rfl rfl (fun _ => rfl) rfl) htodo nofun
  | reported htodo => exact h.perform htodo nofun
  | published hrunning hquiet state e =>
    exact Bound.bind (s := { s with input := { s.input with state := state } }) (h.same rfl rfl rfl (fun _ => rfl) rfl)
      nofun nofun (fun _ => hrunning) nofun nofun
  | exited hrunning hquiet => exact ⟨h.users, h.workerless, fun _ => hquiet, h.mute, h.resting, h.joining⟩
  | expired => exact h.same rfl rfl rfl (fun _ => rfl) rfl
  | outputFailed hlive hquiet e =>
    refine h.bind nofun nofun nofun (fun i hi => ?_) nofun
    cases hi
    exact hlive
  | moved hworker htodo hgoes => exact h.work htodo
  | threw hworker htodo hpc e => exact h.workBinds htodo (by simp)
  | @opened worker hworker htodo hpc => exact ⟨h.users, fun _ => htodo, nofun, h.mute, h.resting, h.joining⟩
  | rechecked hworker htodo hpc => exact h.workBinds htodo (by simp)
  | endReached hworker htodo hpc =>
    exact Bound.work (s := s.advanceTo .draining) (h.same rfl rfl rfl (fun _ => rfl) rfl) htodo
  | ensured hworker htodo hpc =>
    exact Bound.work (h.ensure hfresh) (by rw [ensureRemuxer_todo]; exact htodo)
  | @outputStarted worker id hworker htodo hpc hcurrent =>
    have hlive : Bound (s.setOutput id { live := true, draining := false }) := h.setOutput nofun
    exact Bound.work (s := { s.setOutput id { live := true, draining := false } with sessionStarted := true })
      (hlive.same rfl rfl rfl (fun _ => rfl) rfl) htodo
  | @outputUnstarted worker id hworker htodo hpc hcurrent e =>
    have hlive : Bound (s.setOutput id { live := true, draining := false }) := h.setOutput nofun
    exact hlive.workBinds htodo (by simp)
  | sessionBegun hworker htodo hpc =>
    exact Bound.work (s := { s with hasMedia := true }.advanceTo .running) (h.same rfl rfl rfl (fun _ => rfl) rfl) htodo
  | submitted hworker htodo hpc =>
    exact Bound.work (s := s.advanceTo .running) (h.same rfl rfl rfl (fun _ => rfl) rfl) htodo
  | stopsInput hworker htodo hpc => exact h.workBinds htodo (by simp)
  | sessionClosed hworker htodo hpc hcloses =>
    exact Bound.work (h.closes hcloses) (by rw [hcloses.todo]; exact htodo)
  | finished hworker htodo hpc =>
    exact Bound.work (s := { s with workerDone := true }) (h.same rfl rfl rfl (fun _ => rfl) rfl) htodo
  | ended hworker htodo hpc _ _ _ _ =>
    exact Bound.work (s := { s with ended := true, state := .ended }) (h.same rfl rfl rfl (fun _ => rfl) rfl) htodo
  | reaperTook _ _ => exact h.same rfl rfl rfl (fun _ => rfl) rfl
  | reaperDone _ _ _ => exact h.same rfl rfl rfl (fun _ => rfl) rfl
  | @reaperStopped id _ hquiet =>
    exact Bound.setOutput (s := { s with reaper := some (.collecting id) }) (h.same rfl rfl rfl (fun _ => rfl) rfl)
      fun _ => hquiet
  | collected _ => exact h.same rfl rfl rfl (fun _ => rfl) rfl
  | aborts howner htodo e =>
    exact Bound.bind (h.own htodo) nofun nofun nofun nofun fun _ => ⟨rfl, nofun⟩
  | ownerEnsured howner htodo =>
    exact Bound.own (h.ensure hfresh) (by rw [ensureRemuxer_todo]; exact htodo)
  | reaperLaunched howner htodo =>
    exact Bound.own (s := { s with reaper := some .waiting }) (h.same rfl rfl rfl (fun _ => rfl) rfl) htodo
  | workerLaunched howner htodo =>
    have hown : Bound { s with owner := .idle } := h.own htodo
    exact ⟨hown.users, (fun hdone => by cases hdone _ rfl), hown.silent, hown.mute, hown.resting, hown.joining⟩
  | aborted howner htodo =>
    exact Bound.ownerStops (s := { s with workerDone := true }) (h.same rfl rfl rfl (fun _ => rfl) rfl) htodo rfl rfl
  | joinedWorker howner htodo hworker =>
    have hnone : Bound { s with worker := none } :=
      ⟨h.users, fun _ => h.workerless hworker, h.silent, h.mute, h.resting, h.joining⟩
    exact hnone.ownerStops htodo rfl rfl
  | joinedInput howner htodo => exact h.own htodo
  | @ownerClosed events t howner htodo hcloses =>
    exact Bound.own (s := { t with workerDone := true }) ((h.closes hcloses).same rfl rfl rfl (fun _ => rfl) rfl)
      (by show _ = []; rw [hcloses.todo]; exact htodo)
  | joinedReaper howner htodo _ =>
    exact Bound.own (s := { s with reaper := none }) (h.same rfl rfl rfl (fun _ => rfl) rfl) htodo
  | closed howner htodo =>
    exact Bound.own (s := { s with started := false, state := s.finalState }) (h.same rfl rfl rfl (fun _ => rfl) rfl)
      htodo

/-! ### Where the workers, the input and the outputs are -/

/-- The packet worker is past the start of the input and before its join. -/
def Pc.connected : Pc → Bool
  | .entering | .opening | .closing | .finishing | .settling | .done => false
  | _ => true

/-- The packet worker has not closed its last session. -/
def Pc.unclosed : Pc → Bool
  | .finishing | .settling | .done => false
  | _ => true

/-- The packet worker has told that it is done. -/
def Pc.finished : Pc → Bool
  | .settling | .done => true
  | _ => false

/-- The output the retirement worker is busy with. -/
def Reaper.busy? : Reaper → Option ℕ
  | .stopping id | .collecting id => some id
  | _ => none

/-- What has been set up and taken down when the owner is there. -/
def Phase (s : RemuxPipeline) : Owner → Prop
  | .idle | .joiningWorker => True
  | .ensuring | .launchingReaper =>
    s.started = true ∧ s.worker = none ∧ s.reaper = none ∧ s.workerDone = false
  | .launchingWorker => s.started = true ∧ s.worker = none ∧ s.reaper ≠ none ∧ s.workerDone = false
  | .aborting => s.started = true ∧ s.worker = none
  | .joiningInput | .closing => s.worker = none
  | .joiningReaper => s.worker = none ∧ s.current = none ∧ s.workerDone = true
  | .finishing => s.worker = none ∧ s.current = none ∧ s.reaper = none

theorem Phase.same {owner : Owner} (h : Phase s owner) (hstarted : s'.started = s.started)
    (hworker : s'.worker = s.worker) (hreaper : s'.reaper = s.reaper) (hdone : s'.workerDone = s.workerDone)
    (hcurrent : s'.current = s.current) : Phase s' owner := by
  have heq : Phase s' owner = Phase s owner := by
    cases owner <;> simp only [Phase, hstarted, hworker, hreaper, hdone, hcurrent]
  rw [heq]
  exact h

structure Staged (s : RemuxPipeline) : Prop where
  entered : s.input.running = true → ∃ w, s.worker = some w ∧ w.pc.connected = true
  session : s.sessionStarted = true → s.current ≠ none ∧ ∃ w, s.worker = some w ∧ w.pc.unclosed = true
  finished : s.workerDone = true → ∀ w, s.worker = some w → w.pc.finished = true
  attended : ∀ w, s.worker = some w → s.reaper ≠ none
  reaperDone : s.reaper = some .done → s.workerDone = true
  reaped : (∀ r, s.reaper = some r → r = .done) → s.retired = []
  busy : s.retiring = s.reaper.bind Reaper.busy?
  numbered : ∀ id, s.current = some id → id < s.made
  fresh : ∀ id, s.made ≤ id → (s.outputs id).live = false
  lives : ∀ id, (s.outputs id).live = true → s.current = some id ∨ id ∈ s.retired ∨ s.reaper = some (.stopping id)
  phase : Phase s s.owner
  still : s.started = false → s.worker = none ∧ s.reaper = none ∧ ∀ id, (s.outputs id).live = false

theorem Goes.connected {pc pc' : Pc} (h : Goes s pc pc') (hpc : pc.connected = true) :
    pc'.connected = true ∨ s.input.running = false := by
  cases h with
  | joined hended _ => exact .inr hended
  | skips _ => cases hpc
  | opens _ => cases hpc
  | unended => cases hpc
  | _ => exact .inl rfl

theorem Goes.unclosed {pc pc' : Pc} (h : Goes s pc pc') (hpc : pc.unclosed = true) : pc'.unclosed = true := by
  cases h with
  | unended => cases hpc
  | _ => rfl

theorem Goes.finished {pc pc' : Pc} (h : Goes s pc pc') (hpc : pc.finished = true) : pc'.finished = true := by
  cases h with
  | unended => rfl
  | leaves hleaves _ => cases pc <;> first | (cases hpc; done) | cases hleaves
  | _ => cases hpc

/-- While a packet worker is there, the owner is in no call, or waits for it. -/
theorem Staged.owner (h : Staged s) (hworker : s.worker = some worker) :
    s.owner = .idle ∨ s.owner = .joiningWorker := by
  have hphase := h.phase
  cases howner : s.owner with
  | idle => exact .inl rfl
  | joiningWorker => exact .inr rfl
  | _ => simp [howner, Phase, hworker] at hphase

/-- `Staged` looks at a part of the state only. -/
theorem Staged.same (h : Staged s) (hstarted : s'.started = s.started) (hrunning : s'.input.running = s.input.running)
    (hworker : s'.worker = s.worker) (hreaper : s'.reaper = s.reaper) (howner : s'.owner = s.owner)
    (hdone : s'.workerDone = s.workerDone) (hsession : s'.sessionStarted = s.sessionStarted)
    (hcurrent : s'.current = s.current) (hmade : s'.made = s.made) (hretired : s'.retired = s.retired)
    (hretiring : s'.retiring = s.retiring) (hlive : ∀ id, (s'.outputs id).live = (s.outputs id).live) : Staged s' where
  entered := by
    rw [hrunning, hworker]
    exact h.entered
  session := by
    rw [hsession, hcurrent, hworker]
    exact h.session
  finished := by
    rw [hdone, hworker]
    exact h.finished
  attended := by
    rw [hworker, hreaper]
    exact h.attended
  reaperDone := by
    rw [hreaper, hdone]
    exact h.reaperDone
  reaped := by
    rw [hreaper, hretired]
    exact h.reaped
  busy := by
    rw [hretiring, hreaper]
    exact h.busy
  numbered := by
    rw [hcurrent, hmade]
    exact h.numbered
  fresh id := by
    rw [hmade, hlive]
    exact h.fresh id
  lives id := by
    rw [hlive, hcurrent, hretired, hreaper]
    exact h.lives id
  phase := by
    rw [howner]
    exact h.phase.same hstarted hworker hreaper hdone hcurrent
  still hstopped := by
    rw [hworker, hreaper]
    obtain ⟨hnone, hunreaped, hsilent⟩ := h.still (hstarted.symm.trans hstopped)
    exact ⟨hnone, hunreaped, fun id => (hlive id).trans (hsilent id)⟩

/-- The packet worker goes on. -/
theorem Staged.work (h : Staged s) (hworker : s.worker = some worker) (worker' : Worker)
    (hconnected : s.input.running = true → worker'.pc.connected = true)
    (hunclosed : s.sessionStarted = true → worker'.pc.unclosed = true)
    (hfinished : s.workerDone = true → worker'.pc.finished = true) : Staged { s with worker := some worker' } where
  entered hrunning := ⟨_, rfl, hconnected hrunning⟩
  session hsession := ⟨(h.session hsession).1, _, rfl, hunclosed hsession⟩
  finished hdone w hw := by
    cases hw
    exact hfinished hdone
  attended _ _ := h.attended _ hworker
  reaperDone := h.reaperDone
  reaped := h.reaped
  busy := h.busy
  numbered := h.numbered
  fresh := h.fresh
  lives := h.lives
  phase := by
    show Phase _ s.owner
    rcases h.owner hworker with howner | howner
    · rw [howner]
      trivial
    · rw [howner]
      trivial
  still hstopped := absurd ((h.still hstopped).1.symm.trans hworker) (by simp)

/-- The packet worker goes on where nothing was taken down. -/
theorem Staged.goto (h : Staged s) (hworker : s.worker = some worker) (worker' : Worker)
    (hbefore : worker.pc.finished = false) (hunclosed : worker'.pc.unclosed = true)
    (hconnected : s.input.running = true → worker'.pc.connected = true) :
    Staged { s with worker := some worker' } := by
  refine h.work hworker _ hconnected (fun _ => hunclosed) fun hdone => ?_
  exact absurd (hbefore.symm.trans (h.finished hdone _ hworker)) (by decide)

/-- The packet worker at this place has a connected input, if it runs. -/
theorem Staged.running (h : Staged s) (hworker : s.worker = some worker) (hrunning : s.input.running = true) :
    worker.pc.connected = true := by
  obtain ⟨w, hw, hconnected⟩ := h.entered hrunning
  obtain rfl := Option.some.inj (hworker.symm.trans hw)
  exact hconnected

/-- No worker is there to be taken for another one. -/
theorem Staged.idle (h : Staged s) (hnone : s.worker = none) : s.input.running = false ∧ s.sessionStarted = false := by
  constructor
  · by_contra hrunning
    rw [Bool.not_eq_false] at hrunning
    obtain ⟨w, hw, -⟩ := h.entered hrunning
    cases hnone.symm.trans hw
  · by_contra hsession
    rw [Bool.not_eq_false] at hsession
    obtain ⟨-, w, hw, -⟩ := h.session hsession
    cases hnone.symm.trans hw

/-- The retirement worker has not ended while a packet worker may still retire a session. -/
theorem Staged.reaping (h : Staged s) (hworker : s.worker = some worker) (hbefore : worker.pc.finished = false) :
    ∃ r, s.reaper = some r ∧ r ≠ .done := by
  cases hreaper : s.reaper with
  | none => exact absurd hreaper (h.attended _ hworker)
  | some r =>
    refine ⟨r, rfl, fun hdone => ?_⟩
    rw [hdone] at hreaper
    exact absurd (hbefore.symm.trans (h.finished (h.reaperDone hreaper) _ hworker)) (by decide)

/-- An output that is current becomes live, or one falls silent. -/
theorem Staged.setOutput (h : Staged s) {id : ℕ} {output : Output}
    (hlive : output.live = true → s.started = true ∧ s.current = some id) : Staged (s.setOutput id output) := by
  have hother : ∀ i, (Function.update s.outputs id output i).live = true →
      (s.started = true ∧ s.current = some i) ∨ (s.outputs i).live = true := by
    intro i hi
    by_cases heq : i = id
    · subst heq
      rw [Function.update_self] at hi
      exact .inl (hlive hi)
    · rw [Function.update_of_ne heq] at hi
      exact .inr hi
  refine ⟨h.entered, h.session, h.finished, h.attended, h.reaperDone, h.reaped, h.busy, h.numbered, ?_, ?_,
    h.phase.same rfl rfl rfl rfl rfl, ?_⟩
  · intro i hi
    change s.made ≤ i at hi
    show (Function.update s.outputs id output i).live = false
    by_contra hcontra
    rw [Bool.not_eq_false] at hcontra
    rcases hother i hcontra with ⟨-, hcurrent⟩ | hbefore
    · exact absurd (h.numbered i hcurrent) (by omega)
    · rw [h.fresh i hi] at hbefore
      cases hbefore
  · intro i hi
    rcases hother i hi with ⟨-, hcurrent⟩ | hbefore
    · exact .inl hcurrent
    · exact h.lives i hbefore
  · intro hstopped
    change s.started = false at hstopped
    obtain ⟨hnone, hunreaped, hsilent⟩ := h.still hstopped
    refine ⟨hnone, hunreaped, fun i => ?_⟩
    show (Function.update s.outputs id output i).live = false
    by_contra hcontra
    rw [Bool.not_eq_false] at hcontra
    rcases hother i hcontra with ⟨hstarted, -⟩ | hbefore
    · cases hstopped.symm.trans hstarted
    · rw [hsilent i] at hbefore
      cases hbefore

/-- The current output is given up, and falls silent unless it is retired. -/
theorem Staged.closes (h : Staged s) (hcloses : Closes s events s')
    (hreaping : s.sessionStarted = true → ∃ r, s.reaper = some r ∧ r ≠ .done) : Staged s' ∧ s'.current = none := by
  have hgone : ∀ t : RemuxPipeline, t.current = none → ∀ owner, Phase s owner → t.started = s.started →
      t.worker = s.worker → t.reaper = s.reaper → t.workerDone = s.workerDone → Phase t owner := by
    intro t hcurrent owner hphase hstarted hworker hreaper hdone
    cases owner <;> simp_all [Phase]
  cases hcloses with
  | absent hnone => exact ⟨h, hnone⟩
  | @retires id hcurrent hsession =>
    obtain ⟨r, hreaper, hne⟩ := hreaping hsession
    refine ⟨⟨h.entered, (fun hcontra => by cases hcontra), h.finished, h.attended, h.reaperDone, ?_, h.busy,
      (fun _ hcontra => by cases hcontra), h.fresh, ?_, hgone _ rfl _ h.phase rfl rfl rfl rfl, h.still⟩, rfl⟩
    · intro hall
      exact absurd (hall r hreaper) hne
    · intro i hi
      rcases h.lives i hi with hi | hi | hi
      · cases hcurrent.symm.trans hi
        exact .inr (.inl (List.mem_append_right _ List.mem_cons_self))
      · exact .inr (.inl (List.mem_append_left _ hi))
      · exact .inr (.inr hi)
  | @destroys id hcurrent hsession hquiet =>
    have hset : Staged (s.setOutput id { s.outputs id with live := false }) :=
      h.setOutput fun hcontra => by cases hcontra
    refine ⟨⟨h.entered, (fun hcontra => by cases hsession.symm.trans hcontra), h.finished, h.attended, h.reaperDone,
      h.reaped, h.busy, (fun _ hcontra => by cases hcontra), hset.fresh, ?_, hgone _ rfl _ h.phase rfl rfl rfl rfl,
      hset.still⟩, rfl⟩
    intro i hi
    have hbefore := hset.lives i hi
    change (Function.update s.outputs id { s.outputs id with live := false } i).live = true at hi
    rcases hbefore with hsame | hothers
    · cases hcurrent.symm.trans hsame
      rw [Function.update_self] at hi
      cases hi
    · exact .inr hothers

theorem Staged.ensure (h : Staged s) (howner : s.owner ≠ .joiningReaper ∧ s.owner ≠ .finishing) :
    Staged s.ensureRemuxer := by
  rw [ensureRemuxer]
  split
  · exact h
  · rename_i hnone
    have hlater : ∀ i, (Function.update s.outputs s.made {} i).live = true → (s.outputs i).live = true := by
      intro i hi
      by_cases heq : i = s.made
      · rw [heq, Function.update_self] at hi
        cases hi
      · rwa [Function.update_of_ne heq] at hi
    refine ⟨h.entered, fun hsession => absurd hnone (h.session hsession).1, h.finished, h.attended, h.reaperDone,
      h.reaped, h.busy, ?_, ?_, ?_, ?_, ?_⟩
    · intro id hid
      cases hid
      exact Nat.lt_succ_self _
    · intro i hi
      change s.made + 1 ≤ i at hi
      by_contra hcontra
      rw [Bool.not_eq_false] at hcontra
      have hlive := hlater i hcontra
      rw [h.fresh i (by omega)] at hlive
      cases hlive
    · intro i hi
      rcases h.lives i (hlater i hi) with hcurrent | hothers
      · cases hnone.symm.trans hcurrent
      · exact .inr hothers
    · have hphase := h.phase
      show Phase _ s.owner
      cases hs : s.owner <;> simp_all [Phase, RemuxPipeline.setOutput]
    · intro hstopped
      obtain ⟨hworker, hreaper, hsilent⟩ := h.still hstopped
      refine ⟨hworker, hreaper, fun i => ?_⟩
      by_contra hcontra
      rw [Bool.not_eq_false] at hcontra
      have hlive := hlater i hcontra
      rw [hsilent i] at hlive
      cases hlive

/-! ### One lemma for each section that matters -/

/-- `Staged` does not look at what threads are bound to. -/
theorem Staged.bind (h : Staged s) {tasks : List Task} : Staged (s.bind thread tasks) :=
  { h with phase := h.phase.same rfl rfl rfl rfl rfl }

/-- The owner goes on. -/
theorem Staged.own (h : Staged s) (owner : Owner) (hphase : Phase s owner) : Staged { s with owner := owner } :=
  { h with phase := hphase.same rfl rfl rfl rfl rfl }

theorem Staged.begins (h : Staged s) (hstopped : s.started = false) : Staged { s with
    started := true, stopping := false, ended := false, hasMedia := false, workerDone := false
    state := .starting, error := none, owner := .ensuring } := by
  obtain ⟨hnone, hunreaped, -⟩ := h.still hstopped
  exact { h with
    finished := nofun
    reaperDone := fun hdone => absurd (hunreaped.symm.trans hdone) (by simp)
    phase := ⟨rfl, hnone, hunreaped, rfl⟩
    still := nofun }

theorem Staged.drained (h : Staged s) (id : ℕ) : Staged (s.setOutput id { s.outputs id with draining := true }) := by
  refine h.same rfl rfl rfl rfl rfl rfl rfl rfl rfl rfl rfl fun i => ?_
  show (Function.update s.outputs id { s.outputs id with draining := true } i).live = (s.outputs i).live
  by_cases heq : i = id
  · rw [heq, Function.update_self]
  · rw [Function.update_of_ne heq]

theorem Staged.exited (h : Staged s) : Staged { s with input := { s.input with running := false } } :=
  { h with
    entered := nofun
    phase := h.phase.same rfl rfl rfl rfl rfl }

theorem Staged.moved (h : Staged s) (hworker : s.worker = some worker) {pc : Pc} (hgoes : Goes s worker.pc pc) :
    Staged (s.goto worker pc) := by
  refine h.work hworker _ (fun hrunning => ?_) (fun hsession => ?_) fun hdone => ?_
  · rcases hgoes.connected (h.running hworker hrunning) with hconnected | hended
    · exact hconnected
    · cases hrunning.symm.trans hended
  · obtain ⟨-, w, hw, hunclosed⟩ := h.session hsession
    obtain rfl := Option.some.inj (hworker.symm.trans hw)
    exact hgoes.unclosed hunclosed
  · exact hgoes.finished (h.finished hdone _ hworker)

/-- The packet worker goes on, and what `Staged` does not look at may change with it. -/
theorem Staged.goes (h : Staged s) {pc : Pc} {eof hasMedia : Bool} {state : State} {todo : Thread → List Task}
    (hworker : s.worker = some worker) (hbefore : worker.pc.finished = false) (hunclosed : pc.unclosed = true)
    (hconnected : pc.connected = true) : Staged { s with
      worker := some { pc := pc, eof := eof }, hasMedia := hasMedia, state := state, todo := todo } :=
  (h.goto hworker _ hbefore hunclosed fun _ => hconnected).same rfl rfl rfl rfl rfl rfl rfl rfl rfl rfl rfl fun _ => rfl

theorem Staged.threw (h : Staged s) (hworker : s.worker = some worker) (hpc : worker.pc.throws = true)
    (e : Exception) : Staged (s.caught worker e) := by
  have hgone : worker.pc.finished = false := by
    cases hworkerPc : worker.pc <;> rw [hworkerPc] at hpc <;> first | rfl | cases hpc
  exact h.goes hworker hgone rfl rfl

theorem Staged.opened (h : Staged s) (hworker : s.worker = some worker) (hpc : worker.pc = .opening) :
    Staged ({ s with input := { running := true, cancelled := false, state := .connecting } }.goto worker
      .rechecking) := by
  have hgoto := h.goto hworker { worker with pc := .rechecking } (by rw [hpc]; rfl) rfl fun _ => rfl
  exact { hgoto with
    entered := fun _ => ⟨_, rfl, rfl⟩
    phase := hgoto.phase.same rfl rfl rfl rfl rfl }

theorem Staged.ensured (h : Staged s) (hworker : s.worker = some worker) (hpc : worker.pc = .ensuring) :
    Staged (s.ensureRemuxer.goto worker .startingOutput) := by
  have howner : s.owner ≠ .joiningReaper ∧ s.owner ≠ .finishing := by
    rcases h.owner hworker with howner | howner <;> rw [howner] <;> simp
  have hensured : s.ensureRemuxer.worker = some worker := by
    rw [ensureRemuxer]
    split <;> exact hworker
  exact (h.ensure howner).goto hensured _ (by rw [hpc]; rfl) rfl fun _ => rfl

/-- A pipeline with a worker is started, so its current output may become live. -/
theorem Staged.live (h : Staged s) (hworker : s.worker = some worker) {id : ℕ} (hcurrent : s.current = some id) :
    Staged (s.setOutput id { live := true, draining := false }) := by
  refine h.setOutput fun _ => ⟨?_, hcurrent⟩
  by_contra hstopped
  rw [Bool.not_eq_true] at hstopped
  cases (h.still hstopped).1.symm.trans hworker

theorem Staged.outputStarted (h : Staged s) (hworker : s.worker = some worker) (hpc : worker.pc = .startingOutput)
    {id : ℕ} (hcurrent : s.current = some id) : Staged ({ s.setOutput id { live := true, draining := false } with
      sessionStarted := true }.goto worker .sessionStarted) := by
  have hgoto := (h.live hworker hcurrent).goto hworker { worker with pc := .sessionStarted } (by rw [hpc]; rfl) rfl
    fun _ => rfl
  have hne : s.current ≠ none := by
    rw [hcurrent]
    simp
  exact { hgoto with
    session := fun _ => ⟨hne, _, rfl, rfl⟩
    phase := hgoto.phase.same rfl rfl rfl rfl rfl }

theorem Staged.outputUnstarted (h : Staged s) (hworker : s.worker = some worker) (hpc : worker.pc = .startingOutput)
    {id : ℕ} (hcurrent : s.current = some id) (e : Exception) :
    Staged ((s.setOutput id { live := true, draining := false }).caught worker e) := by
  have hgoto := (h.live hworker hcurrent).goto hworker { worker with pc := .leaving } (by rw [hpc]; rfl) rfl
    fun _ => rfl
  exact hgoto.bind

theorem Staged.sessionClosed (h : Staged s) (hworker : s.worker = some worker) {pc : Pc}
    (hpc : worker.pc = .closingSession ∧ pc = .sessionChecking ∨ worker.pc = .closing ∧ pc = .finishing)
    (hcloses : Closes s events s') : Staged (s'.goto worker pc) := by
  have hbefore : worker.pc.finished = false := by
    rcases hpc with ⟨hpc, -⟩ | ⟨hpc, -⟩ <;> rw [hpc] <;> rfl
  obtain ⟨hs', hcurrent⟩ := h.closes hcloses fun _ => h.reaping hworker hbefore
  have hclosed : s'.sessionStarted = false := by
    by_contra hsession
    rw [Bool.not_eq_false] at hsession
    exact (hs'.session hsession).1 hcurrent
  refine hs'.work (hcloses.worker_eq.trans hworker) _ (fun hrunning => ?_) (fun hsession => ?_) fun hdone => ?_
  · rw [hcloses.running_eq] at hrunning
    have hconnected := h.running hworker hrunning
    rcases hpc with ⟨-, rfl⟩ | ⟨hpc, -⟩
    · rfl
    · rw [hpc] at hconnected
      cases hconnected
  · cases hclosed.symm.trans hsession
  · rw [hcloses.workerDone_eq] at hdone
    cases hbefore.symm.trans (h.finished hdone _ hworker)

/-- A worker that has closed its last session has neither a session nor a running input. -/
theorem Staged.over (h : Staged s) (hworker : s.worker = some worker) (hunclosed : worker.pc.unclosed = false)
    (hconnected : worker.pc.connected = false) : s.sessionStarted = false ∧ s.input.running = false := by
  constructor
  · by_contra hsession
    rw [Bool.not_eq_false] at hsession
    obtain ⟨-, w, hw, hcontra⟩ := h.session hsession
    obtain rfl := Option.some.inj (hworker.symm.trans hw)
    cases hunclosed.symm.trans hcontra
  · by_contra hrunning
    rw [Bool.not_eq_false] at hrunning
    cases hconnected.symm.trans (h.running hworker hrunning)

theorem Staged.finishes (h : Staged s) (hworker : s.worker = some worker) (hpc : worker.pc = .finishing) :
    Staged ({ s with workerDone := true }.goto worker (if worker.eof then .settling else .done)) := by
  have hdone : (if worker.eof then Pc.settling else Pc.done).finished = true := by
    split <;> rfl
  obtain ⟨hclosed, hended⟩ := h.over hworker (by rw [hpc]; rfl) (by rw [hpc]; rfl)
  have hgoto := h.work hworker { worker with pc := if worker.eof then .settling else .done }
    (fun hrunning => by cases hended.symm.trans hrunning) (fun hsession => by cases hclosed.symm.trans hsession)
    fun _ => hdone
  refine { hgoto with finished := ?_, reaperDone := fun _ => rfl, phase := ?_ }
  · intro _ w hw
    cases hw
    exact hdone
  · show Phase _ s.owner
    rcases h.owner hworker with howner | howner <;> rw [howner] <;> trivial

theorem Staged.ends (h : Staged s) (hworker : s.worker = some worker) (hpc : worker.pc = .settling) :
    Staged ({ s with ended := true, state := .ended }.goto worker .done) := by
  obtain ⟨hclosed, hended⟩ := h.over hworker (by rw [hpc]; rfl) (by rw [hpc]; rfl)
  have hwork := h.work hworker { worker with pc := .done } (fun hrunning => by cases hended.symm.trans hrunning)
    (fun hsession => by cases hclosed.symm.trans hsession) fun _ => rfl
  exact hwork.same rfl rfl rfl rfl rfl rfl rfl rfl rfl rfl rfl fun _ => rfl

/-- The retirement worker goes on. -/
theorem Staged.reap (h : Staged s) {r r' : Reaper} {retired : List ℕ} {retiring : Option ℕ}
    (hreaper : s.reaper = some r) (hdone : r' = .done → s.workerDone = true ∧ retired = [])
    (hbusy : retiring = r'.busy?)
    (hlives : ∀ id, (s.outputs id).live = true → s.current = some id ∨ id ∈ retired ∨ r' = .stopping id) :
    Staged { s with retired := retired, retiring := retiring, reaper := some r' } := by
  have hphase := h.phase
  exact { h with
    attended := nofun
    reaperDone := fun heq => (hdone (Option.some.inj heq)).1
    reaped := fun hall => (hdone (hall r' rfl)).2
    busy := hbusy
    lives := fun id hid => (hlives id hid).imp_right (Or.imp_right (congrArg some))
    phase := by
      show Phase _ s.owner
      cases howner : s.owner <;> simp_all [Phase]
    still := fun hstopped => by cases (h.still hstopped).2.1.symm.trans hreaper }

theorem Staged.reaperTook (h : Staged s) {id : ℕ} {rest : List ℕ} (hreaper : s.reaper = some .waiting)
    (hretired : s.retired = id :: rest) :
    Staged { s with retired := rest, retiring := some id, reaper := some (.stopping id) } := by
  refine h.reap hreaper nofun rfl fun i hi => ?_
  rcases h.lives i hi with hi | hi | hi
  · exact .inl hi
  · rw [hretired] at hi
    rcases List.mem_cons.mp hi with rfl | hi
    · exact .inr (.inr rfl)
    · exact .inr (.inl hi)
  · cases hreaper.symm.trans hi

/-- A retirement worker that stops no output leaves none live that is neither current nor retired. -/
theorem Staged.kept (h : Staged s) (hreaper : ∀ id, s.reaper ≠ some (.stopping id)) {i : ℕ}
    (hi : (s.outputs i).live = true) : s.current = some i ∨ i ∈ s.retired := by
  rcases h.lives i hi with hi | hi | hi
  · exact .inl hi
  · exact .inr hi
  · exact absurd hi (hreaper i)

theorem Staged.reaperEnds (h : Staged s) (hreaper : s.reaper = some .waiting) (hretired : s.retired = [])
    (hdone : s.workerDone = true) : Staged { s with reaper := some .done } := by
  have hbusy := h.busy
  rw [hreaper] at hbusy
  refine h.reap hreaper (fun _ => ⟨hdone, hretired⟩) hbusy fun i hi => ?_
  exact (h.kept (by simp [hreaper]) hi).imp_right .inl

theorem Staged.reaperStopped (h : Staged s) {id : ℕ} (hreaper : s.reaper = some (.stopping id)) :
    Staged ({ s with reaper := some (.collecting id) }.setOutput id { s.outputs id with live := false }) := by
  have hset : Staged (s.setOutput id { s.outputs id with live := false }) :=
    h.setOutput fun hcontra => by cases hcontra
  have hbusy := h.busy
  rw [hreaper] at hbusy
  refine hset.reap hreaper nofun hbusy fun i hi => ?_
  have hbefore := hset.lives i hi
  change (Function.update s.outputs id { s.outputs id with live := false } i).live = true at hi
  rcases hbefore with hsame | hmem | hbusy
  · exact .inl hsame
  · exact .inr (.inl hmem)
  · cases hreaper.symm.trans hbusy
    rw [Function.update_self] at hi
    cases hi

theorem Staged.collected (h : Staged s) {id : ℕ} (hreaper : s.reaper = some (.collecting id)) :
    Staged { s with retiring := none, reaper := some .waiting } :=
  h.reap hreaper nofun rfl fun _ hi => (h.kept (by simp [hreaper]) hi).imp_right .inl

theorem Staged.ownerEnsured (h : Staged s) (howner : s.owner = .ensuring) :
    Staged { s.ensureRemuxer with owner := .launchingReaper } := by
  have hensured := h.ensure (by rw [howner]; simp)
  have hphase := hensured.phase
  have hsame : s.ensureRemuxer.owner = .ensuring := by
    rw [ensureRemuxer]
    split <;> exact howner
  rw [hsame] at hphase
  exact hensured.own _ hphase

theorem Staged.reaperLaunched (h : Staged s) (howner : s.owner = .launchingReaper) :
    Staged { s with reaper := some .waiting, owner := .launchingWorker } := by
  have hphase := h.phase
  rw [howner] at hphase
  obtain ⟨hstarted, hnone, hunreaped, hgoing⟩ := hphase
  have hbusy := h.busy
  rw [hunreaped] at hbusy
  exact { h with
    attended := nofun
    reaperDone := nofun
    reaped := fun hall => by cases hall _ rfl
    busy := hbusy
    lives := fun i hi => (h.kept (by simp [hunreaped]) hi).imp_right .inl
    phase := ⟨hstarted, hnone, by simp, hgoing⟩
    still := fun hstopped => by cases hstopped.symm.trans hstarted }

theorem Staged.workerLaunched (h : Staged s) (howner : s.owner = .launchingWorker) :
    Staged { s with worker := some {}, owner := .idle } := by
  have hphase := h.phase
  rw [howner] at hphase
  obtain ⟨hstarted, hnone, hreaper, hgoing⟩ := hphase
  obtain ⟨hrunning, hsession⟩ := h.idle hnone
  exact { h with
    entered := fun hcontra => by cases hcontra.symm.trans hrunning
    session := fun hcontra => by cases hcontra.symm.trans hsession
    finished := fun hcontra => by cases hcontra.symm.trans hgoing
    attended := fun _ _ => hreaper
    phase := trivial
    still := fun hcontra => by cases hcontra.symm.trans hstarted }

theorem Staged.aborted (h : Staged s) (howner : s.owner = .aborting) :
    Staged { s with workerDone := true, owner := .joiningWorker } := by
  have hphase := h.phase
  rw [howner] at hphase
  exact { h with
    finished := fun _ _ hw => by cases hphase.2.symm.trans hw
    reaperDone := fun _ => rfl
    phase := trivial }

theorem Staged.joinedWorker (h : Staged s) (hworker : ∀ w, s.worker = some w → w.pc = .done) :
    Staged { s with worker := none, owner := .joiningInput } := by
  refine { h with
    entered := fun hrunning => ?_
    session := fun hsession => ?_
    finished := nofun
    attended := nofun
    phase := rfl
    still := fun hstopped => ⟨rfl, (h.still hstopped).2⟩ }
  · obtain ⟨w, hw, hconnected⟩ := h.entered hrunning
    rw [hworker w hw] at hconnected
    cases hconnected
  · obtain ⟨-, w, hw, hunclosed⟩ := h.session hsession
    rw [hworker w hw] at hunclosed
    cases hunclosed

theorem Staged.ownerClosed (h : Staged s) (howner : s.owner = .closing) (hcloses : Closes s events s') :
    Staged { s' with workerDone := true, owner := .joiningReaper } := by
  have hnone : s.worker = none := by
    have hphase := h.phase
    rwa [howner] at hphase
  obtain ⟨hs', hcurrent⟩ := h.closes hcloses fun hsession => by cases (h.idle hnone).2.symm.trans hsession
  have hkept : s'.worker = none := by
    rw [hcloses.worker_eq]
    exact hnone
  exact { hs' with
    finished := fun _ w hw => by cases hkept.symm.trans hw
    reaperDone := fun _ => rfl
    phase := ⟨hkept, hcurrent, rfl⟩ }

theorem Staged.joinedReaper (h : Staged s) (howner : s.owner = .joiningReaper)
    (hreaper : ∀ r, s.reaper = some r → r = .done) : Staged { s with reaper := none, owner := .finishing } := by
  have hphase := h.phase
  rw [howner] at hphase
  obtain ⟨hnone, hcurrent, -⟩ := hphase
  have hretired := h.reaped hreaper
  have hbusy := h.busy
  exact { h with
    attended := fun w hw => by cases hnone.symm.trans hw
    reaperDone := nofun
    reaped := fun _ => hretired
    busy := by
      cases hr : s.reaper with
      | none =>
        rw [hr] at hbusy
        exact hbusy
      | some r =>
        rw [hr, hreaper r hr] at hbusy
        exact hbusy
    lives := fun i hi => (h.kept (fun _ hcontra => by cases hreaper _ hcontra) hi).imp_right .inl
    phase := ⟨hnone, hcurrent, rfl⟩
    still := fun hstopped => ⟨hnone, rfl, (h.still hstopped).2.2⟩ }

theorem Staged.closed (h : Staged s) (howner : s.owner = .finishing) :
    Staged { s with started := false, state := s.finalState, owner := .idle } := by
  have hphase := h.phase
  rw [howner] at hphase
  obtain ⟨hnone, hcurrent, hunreaped⟩ := hphase
  have hretired := h.reaped fun r hr => by cases hunreaped.symm.trans hr
  refine { h with phase := trivial, still := fun _ => ⟨hnone, hunreaped, fun i => ?_⟩ }
  by_contra hlive
  rw [Bool.not_eq_false] at hlive
  rcases h.kept (by simp [hunreaped]) hlive with hi | hi
  · cases hcurrent.symm.trans hi
  · rw [hretired] at hi
    cases hi

theorem Staged.step (h : Staged s) (hstep : Stepped s events s') : Staged s' := by
  have hsame : ∀ {t : RemuxPipeline}, t.started = s.started → t.input.running = s.input.running →
      t.worker = s.worker → t.reaper = s.reaper → t.owner = s.owner → t.workerDone = s.workerDone →
      t.sessionStarted = s.sessionStarted → t.current = s.current → t.made = s.made → t.retired = s.retired →
      t.retiring = s.retiring → t.outputs = s.outputs → Staged t :=
    fun h₁ h₂ h₃ h₄ h₅ h₆ h₇ h₈ h₉ h₁₀ h₁₁ h₁₂ =>
      h.same h₁ h₂ h₃ h₄ h₅ h₆ h₇ h₈ h₉ h₁₀ h₁₁ fun id => by rw [h₁₂]
  cases hstep with
  | same => exact h
  | started _ hstopped => exact h.begins hstopped
  | stop _ => exact (h.own .joiningWorker trivial).bind
  | requested _ => exact h.bind
  | dropped _ _ => exact h.bind
  | failed _ _ _ => exact hsame rfl rfl rfl rfl rfl rfl rfl rfl rfl rfl rfl rfl
  | stopRecorded _ => exact hsame rfl rfl rfl rfl rfl rfl rfl rfl rfl rfl rfl rfl
  | inputCancelled _ => exact hsame rfl rfl rfl rfl rfl rfl rfl rfl rfl rfl rfl rfl
  | drained _ => exact (h.drained _).bind
  | inputChanged _ => exact hsame rfl rfl rfl rfl rfl rfl rfl rfl rfl rfl rfl rfl
  | reported _ => exact h.bind
  | published _ _ _ _ => exact hsame rfl rfl rfl rfl rfl rfl rfl rfl rfl rfl rfl rfl
  | exited _ _ => exact h.exited
  | expired => exact hsame rfl rfl rfl rfl rfl rfl rfl rfl rfl rfl rfl rfl
  | outputFailed _ _ _ => exact h.bind
  | moved hworker _ hgoes => exact h.moved hworker hgoes
  | threw hworker _ hpc e => exact h.threw hworker hpc e
  | opened hworker _ hpc => exact h.opened hworker hpc
  | rechecked hworker _ hpc => exact h.goes hworker (by rw [hpc]; rfl) rfl rfl
  | endReached hworker _ hpc => exact h.goes hworker (by rw [hpc]; rfl) rfl rfl
  | ensured hworker _ hpc => exact h.ensured hworker hpc
  | outputStarted hworker _ hpc hcurrent => exact h.outputStarted hworker hpc hcurrent
  | outputUnstarted hworker _ hpc hcurrent e => exact h.outputUnstarted hworker hpc hcurrent e
  | sessionBegun hworker _ hpc => exact h.goes hworker (by rw [hpc]; rfl) rfl rfl
  | submitted hworker _ hpc => exact h.goes hworker (by rw [hpc]; rfl) rfl rfl
  | stopsInput hworker _ hpc => exact h.goes hworker (by rw [hpc]; rfl) rfl rfl
  | sessionClosed hworker _ hpc hcloses => exact h.sessionClosed hworker hpc hcloses
  | finished hworker _ hpc => exact h.finishes hworker hpc
  | ended hworker _ hpc _ _ _ _ => exact h.ends hworker hpc
  | reaperTook hreaper hretired => exact h.reaperTook hreaper hretired
  | reaperDone hreaper hretired hdone => exact h.reaperEnds hreaper hretired hdone
  | reaperStopped hreaper _ => exact h.reaperStopped hreaper
  | collected hreaper => exact h.collected hreaper
  | aborts howner _ e =>
    have hphase := h.phase
    have hbegan : s.started = true ∧ s.worker = none := by
      rcases howner with howner | howner | howner <;> rw [howner] at hphase <;> exact ⟨hphase.1, hphase.2.1⟩
    exact (h.own .aborting hbegan).bind
  | ownerEnsured howner _ => exact h.ownerEnsured howner
  | reaperLaunched howner _ => exact h.reaperLaunched howner
  | workerLaunched howner _ => exact h.workerLaunched howner
  | aborted howner _ => exact (h.aborted howner).bind
  | joinedWorker _ _ hworker => exact (h.joinedWorker hworker).bind
  | joinedInput howner _ =>
    have hphase := h.phase
    rw [howner] at hphase
    exact h.own .closing hphase
  | ownerClosed howner _ hcloses => exact h.ownerClosed howner hcloses
  | joinedReaper howner _ hreaper => exact h.joinedReaper howner hreaper
  | closed howner _ => exact h.closed howner

end RemuxPipeline

end MwStreamer
