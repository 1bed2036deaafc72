import MwStreamer.Pipeline.RemuxEnds

/-!
# Stops of the remux pipeline

A stop may be recorded while the packet worker starts the input, whose `Start` takes a cancellation back, or while it
is about to submit to an output.  `Cancels` says that a running input is cancelled in spite of that, `Unblocks` that
the output of a submission is drained, up to steps that a thread is still bound to take.
-/

namespace MwStreamer

namespace RemuxPipeline

variable {s s' : RemuxPipeline} {events : List Event} {worker : Worker} {thread : Thread}

/-! ### A stop reaches the input -/

/-- An input that was started in spite of a stop is going to be cancelled. -/
def Cancels (s : RemuxPipeline) : Prop :=
  s.stopping = true → s.input.running = true → s.input.cancelled = false →
    Threads.Owed (· = Task.cancelInput) s.todo ∨ ∃ w, s.worker = some w ∧ w.pc = .rechecking

theorem Cancels.frame (h : Cancels s) (hstopping : s'.stopping = s.stopping)
    (hrunning : s'.input.running = true → s.input.running = true)
    (hcancelled : s'.input.cancelled = false → s.input.cancelled = false)
    (howed : Threads.Owed (· = Task.cancelInput) s.todo → Threads.Owed (· = Task.cancelInput) s'.todo)
    (hworker : ∀ w, s.worker = some w → w.pc = .rechecking → ∃ w', s'.worker = some w' ∧ w'.pc = .rechecking) :
    Cancels s' := by
  intro hstop hrun hcancel
  rw [hstopping] at hstop
  rcases h hstop (hrunning hrun) (hcancelled hcancel) with hpending | ⟨w, hw, hpc⟩
  · exact .inl (howed hpending)
  · exact .inr (hworker w hw hpc)

theorem Goes.not_rechecking {pc pc' : Pc} (h : Goes s pc pc') : pc ≠ .rechecking := by
  intro hpc
  cases h with
  | leaves hleaves _ =>
    rw [hpc] at hleaves
    cases hleaves
  | _ => cases hpc

theorem Closes.input_eq (h : Closes s events s') : s'.input = s.input := by cases h <;> rfl
theorem Closes.stopping_eq (h : Closes s events s') : s'.stopping = s.stopping := by cases h <;> rfl

theorem ensureRemuxer_input : s.ensureRemuxer.input = s.input := by
  rw [ensureRemuxer]
  split <;> rfl

theorem ensureRemuxer_stopping : s.ensureRemuxer.stopping = s.stopping := by
  rw [ensureRemuxer]
  split <;> rfl

theorem ensureRemuxer_worker : s.ensureRemuxer.worker = s.worker := by
  rw [ensureRemuxer]
  split <;> rfl

theorem Cancels.step (hb : Bound s) (hs : Staged s) (h : Cancels s) (hstep : Stepped s events s') : Cancels s' := by
  have hkeeps : ∀ {s₁ : RemuxPipeline}, s₁.worker = s.worker → ∀ w, s.worker = some w → w.pc = .rechecking →
      ∃ w', s₁.worker = some w' ∧ w'.pc = .rechecking :=
    fun heq w hw hpc => ⟨w, heq.trans hw, hpc⟩
  have hleft : ∀ {s₁ : RemuxPipeline} {w₀ : Worker}, s.worker = some w₀ → w₀.pc ≠ .rechecking →
      ∀ w, s.worker = some w → w.pc = .rechecking → ∃ w', s₁.worker = some w' ∧ w'.pc = .rechecking := by
    intro s₁ w₀ hw₀ hne w hw hpc
    obtain rfl := Option.some.inj (hw₀.symm.trans hw)
    exact absurd hpc hne
  have hpcne : ∀ {w : Worker} {pc : Pc}, w.pc = pc → pc ≠ .rechecking → w.pc ≠ .rechecking :=
    fun hpc hne => hpc.trans_ne hne
  cases hstep with
  | same => exact h
  | started _ _ => exact (fun hstop => by cases hstop)
  | stop hidle => exact h.frame rfl id id (Threads.Owed.fresh (hb.resting (by rw [hidle]; rfl))) (hkeeps rfl)
  | requested htodo => exact h.frame rfl id id (Threads.Owed.fresh htodo) (hkeeps rfl)
  | dropped htodo _ =>
    exact h.frame rfl id id (fun howed => howed.take htodo (fun _ hm => hm) (by simp)) (hkeeps rfl)
  | failed htodo _ _ =>
    refine h.frame rfl id id (fun howed => howed.take htodo (fun m hm => ?_) (by simp)) (hkeeps rfl)
    exact List.mem_cons_of_mem _ (List.mem_cons_of_mem _ hm)
  | stopRecorded _ => exact fun _ _ _ => .inl (.of_mem List.mem_cons_self rfl)
  | inputCancelled _ => exact (fun _ _ hcancelled => by cases hcancelled)
  | drained htodo =>
    exact h.frame rfl id id (fun howed => howed.take htodo (fun _ hm => hm) (by simp)) (hkeeps rfl)
  | inputChanged htodo =>
    exact h.frame rfl id id (fun howed => howed.take htodo (fun _ hm => hm) (by simp)) (hkeeps rfl)
  | reported htodo =>
    exact h.frame rfl id id (fun howed => howed.take htodo (fun _ hm => hm) (by simp)) (hkeeps rfl)
  | published _ hquiet _ _ => exact h.frame rfl id id (Threads.Owed.fresh hquiet) (hkeeps rfl)
  | exited _ _ => exact h.frame rfl (fun hcontra => by cases hcontra) id id (hkeeps rfl)
  | expired => exact (fun _ _ hcancelled => by cases hcancelled)
  | outputFailed _ hquiet _ => exact h.frame rfl id id (Threads.Owed.fresh hquiet) (hkeeps rfl)
  | moved hworker _ hgoes => exact h.frame rfl id id id (hleft hworker hgoes.not_rechecking)
  | @threw worker hworker htodo hthrows _ =>
    refine h.frame rfl id id (Threads.Owed.fresh htodo) (hleft hworker fun hpc => ?_)
    rw [hpc] at hthrows
    cases hthrows
  | opened _ _ _ => exact fun _ _ _ => .inr ⟨_, rfl, rfl⟩
  | rechecked _ _ _ =>
    intro hstop _ _
    have hstopping : s.stopping = true := hstop
    refine .inl (.of_mem (m := Task.cancelInput) ?_ rfl)
    rw [hstopping]
    exact List.mem_cons_self
  | endReached hworker _ hpc => exact h.frame rfl id id id (hleft hworker (hpcne hpc (by simp)))
  | ensured hworker _ hpc =>
    refine h.frame ensureRemuxer_stopping ?_ ?_ ?_ (hleft hworker (hpcne hpc (by simp)))
    · exact fun hrunning => ensureRemuxer_input (s := s) ▸ hrunning
    · exact fun hcancelled => ensureRemuxer_input (s := s) ▸ hcancelled
    · exact fun howed => by rw [goto, ensureRemuxer_todo]; exact howed
  | outputStarted hworker _ hpc _ => exact h.frame rfl id id id (hleft hworker (hpcne hpc (by simp)))
  | outputUnstarted hworker htodo hpc _ _ =>
    exact h.frame rfl id id (Threads.Owed.fresh htodo) (hleft hworker (hpcne hpc (by simp)))
  | sessionBegun hworker _ hpc => exact h.frame rfl id id id (hleft hworker (hpcne hpc (by simp)))
  | submitted hworker _ hpc => exact h.frame rfl id id id (hleft hworker (hpcne hpc (by simp)))
  | stopsInput hworker htodo hpc =>
    exact h.frame rfl id id (Threads.Owed.fresh htodo) (hleft hworker (hpcne hpc (by simp)))
  | sessionClosed hworker _ hpc hcloses =>
    refine h.frame hcloses.stopping_eq ?_ ?_ ?_ (hleft hworker ?_)
    · exact fun hrunning => hcloses.input_eq ▸ hrunning
    · exact fun hcancelled => hcloses.input_eq ▸ hcancelled
    · exact fun howed => by rw [goto, hcloses.todo]; exact howed
    · rcases hpc with ⟨hpc, -⟩ | ⟨hpc, -⟩
      · exact hpcne hpc (by simp)
      · exact hpcne hpc (by simp)
  | finished hworker _ hpc => exact h.frame rfl id id id (hleft hworker (hpcne hpc (by simp)))
  | ended hworker _ hpc _ _ _ _ => exact h.frame rfl id id id (hleft hworker (hpcne hpc (by simp)))
  | reaperTook _ _ => exact h.frame rfl id id id (hkeeps rfl)
  | reaperDone _ _ _ => exact h.frame rfl id id id (hkeeps rfl)
  | reaperStopped _ _ => exact h.frame rfl id id id (hkeeps rfl)
  | collected _ => exact h.frame rfl id id id (hkeeps rfl)
  | aborts _ htodo _ => exact h.frame rfl id id (Threads.Owed.fresh htodo) (hkeeps rfl)
  | ownerEnsured _ _ =>
    refine h.frame ensureRemuxer_stopping ?_ ?_ ?_ (hkeeps ensureRemuxer_worker)
    · exact fun hrunning => ensureRemuxer_input (s := s) ▸ hrunning
    · exact fun hcancelled => ensureRemuxer_input (s := s) ▸ hcancelled
    · exact fun howed => by
        show Threads.Owed _ s.ensureRemuxer.todo
        rw [ensureRemuxer_todo]
        exact howed
  | reaperLaunched _ _ => exact h.frame rfl id id id (hkeeps rfl)
  | workerLaunched howner _ =>
    have hphase := hs.phase
    rw [howner] at hphase
    exact h.frame rfl id id id fun w hw => absurd (hphase.2.1.symm.trans hw) (by simp)
  | aborted _ htodo => exact h.frame rfl id id (Threads.Owed.fresh htodo) (hkeeps rfl)
  | joinedWorker _ htodo hworker =>
    exact h.frame rfl id id (Threads.Owed.fresh htodo) fun w hw hpc => absurd (hpc.symm.trans (hworker w hw)) (by simp)
  | joinedInput _ _ => exact h.frame rfl id id id (hkeeps rfl)
  | ownerClosed _ _ hcloses =>
    refine h.frame hcloses.stopping_eq ?_ ?_ ?_ (hkeeps hcloses.worker_eq)
    · exact fun hrunning => hcloses.input_eq ▸ hrunning
    · exact fun hcancelled => hcloses.input_eq ▸ hcancelled
    · exact fun howed => by
        show Threads.Owed _ _
        rw [hcloses.todo]
        exact howed
  | joinedReaper _ _ _ => exact h.frame rfl id id id (hkeeps rfl)
  | closed _ _ => exact h.frame rfl id id id (hkeeps rfl)

/-! ### A stop reaches the output of a submission -/

/-- The packet worker has found no stop before it submits, and has not submitted. -/
def Pc.submits : Pc → Bool
  | .capturing | .submitting _ => true
  | _ => false

/-- The output of a submission that goes on in spite of a stop is going to be drained. -/
structure Unblocks (s : RemuxPipeline) : Prop where
  captured : ∀ w id, s.worker = some w → w.pc = .submitting (some id) → s.current = some id
  drains : ∀ w id, s.worker = some w → w.pc.submits = true → s.current = some id → s.stopping = true →
    (s.outputs id).draining = true ∨ Threads.Owed (· = Task.drain id) s.todo

theorem Unblocks.frame (h : Unblocks s) (hworker : s'.worker = s.worker) (hcurrent : s'.current = s.current)
    (hstopping : s'.stopping = s.stopping)
    (hdraining : ∀ id, (s.outputs id).draining = true → (s'.outputs id).draining = true)
    (howed : ∀ id, Threads.Owed (· = Task.drain id) s.todo → Threads.Owed (· = Task.drain id) s'.todo) :
    Unblocks s' where
  captured w id hw hpc := by
    rw [hcurrent]
    exact h.captured w id (hworker ▸ hw) hpc
  drains w id hw hpc hid hstop := by
    rw [hcurrent] at hid
    rw [hstopping] at hstop
    rw [hworker] at hw
    exact (h.drains w id hw hpc hid hstop).imp (hdraining id) (howed id)

/-- The packet worker is elsewhere. -/
theorem Unblocks.elsewhere (hworker : ∀ w, s.worker = some w → w.pc.submits = false) : Unblocks s where
  captured w id hw hpc := by
    have hsubmits := hworker w hw
    rw [hpc] at hsubmits
    cases hsubmits
  drains w id hw hpc _ _ := absurd (hpc.symm.trans (hworker w hw)) (by decide)

theorem Unblocks.moved {pc : Pc} (h : Unblocks s) (hworker : s.worker = some worker) (hgoes : Goes s worker.pc pc) :
    Unblocks (s.goto worker pc) := by
  have helsewhere : pc.submits = false → Unblocks (s.goto worker pc) := by
    intro hsubmits
    refine .elsewhere fun w hw => ?_
    obtain rfl := Option.some.inj hw
    exact hsubmits
  -- What the packet worker submits to is captured after the last look for a stop.
  generalize hplace : worker.pc = place at hgoes
  cases hgoes with
  | checked hgoing =>
    refine ⟨fun w id hw hpc => ?_, fun w id _ _ _ hstop => ?_⟩
    · obtain rfl := Option.some.inj hw
      cases hpc
    · cases hgoing.symm.trans hstop
  | captured =>
    refine ⟨fun w id hw hpc => ?_, fun w id hw _ hid hstop => ?_⟩
    · obtain rfl := Option.some.inj hw
      exact Pc.submitting.inj hpc
    · exact h.drains worker id hworker (by rw [hplace]; rfl) hid hstop
  | _ => exact helsewhere rfl

theorem Unblocks.step (hb : Bound s) (hs : Staged s) (h : Unblocks s) (hstep : Stepped s events s') :
    Unblocks s' := by
  have hgone : ∀ {s₁ : RemuxPipeline} {w₁ : Worker}, s₁.worker = some w₁ → w₁.pc.submits = false → Unblocks s₁ := by
    intro s₁ w₁ hw₁ hpc
    refine .elsewhere fun w hw => ?_
    obtain rfl := Option.some.inj (hw₁.symm.trans hw)
    exact hpc
  have hnone : ∀ {s₁ : RemuxPipeline}, s₁.worker = none → Unblocks s₁ :=
    fun hnone => .elsewhere fun w hw => absurd (hnone.symm.trans hw) (by simp)
  have htake : ∀ {t : Thread} {task : Task} {rest tasks : List Task}, s.todo t = task :: rest →
      (∀ m ∈ rest, m ∈ tasks) → (∀ id, task ≠ .drain id) → ∀ id, Threads.Owed (· = Task.drain id) s.todo →
      Threads.Owed (· = Task.drain id) (Function.update s.todo t tasks) :=
    fun htodo hrest hne id howed => howed.take htodo hrest (hne id)
  cases hstep with
  | same => exact h
  | started _ hstopped => exact hnone (hs.still hstopped).1
  | stop hidle =>
    exact h.frame rfl rfl rfl (fun _ => id) fun _ => Threads.Owed.fresh (hb.resting (by rw [hidle]; rfl))
  | requested htodo => exact h.frame rfl rfl rfl (fun _ => id) fun _ => Threads.Owed.fresh htodo
  | dropped htodo _ => exact h.frame rfl rfl rfl (fun _ => id) (htake htodo (fun _ hm => hm) (by simp))
  | failed htodo _ _ =>
    refine h.frame rfl rfl rfl (fun _ => id) (htake htodo (fun m hm => ?_) (by simp))
    exact List.mem_cons_of_mem _ (List.mem_cons_of_mem _ hm)
  | @stopRecorded t rest htodo =>
    refine ⟨h.captured, fun w id _ _ hid _ => .inr ?_⟩
    have hcurrent : s.current = some id := hid
    refine .of_mem (m := Task.drain id) ?_ rfl
    rw [hcurrent]
    exact List.mem_cons_of_mem _ List.mem_cons_self
  | inputCancelled htodo => exact h.frame rfl rfl rfl (fun _ => id) (htake htodo (fun _ hm => hm) (by simp))
  | @drained t id rest htodo =>
    refine ⟨h.captured, fun w i hw hpc hi hstop => ?_⟩
    show (Function.update s.outputs id { s.outputs id with draining := true } i).draining = true ∨
      Threads.Owed (· = Task.drain i) (Function.update s.todo t rest)
    by_cases heq : i = id
    · subst heq
      rw [Function.update_self]
      exact .inl rfl
    · rw [Function.update_of_ne heq]
      refine (h.drains w i hw hpc hi hstop).imp_right fun howed => howed.take htodo (fun _ hm => hm) fun hcontra => ?_
      exact heq (Task.drain.inj hcontra).symm
  | inputChanged htodo => exact h.frame rfl rfl rfl (fun _ => id) (htake htodo (fun _ hm => hm) (by simp))
  | reported htodo => exact h.frame rfl rfl rfl (fun _ => id) (htake htodo (fun _ hm => hm) (by simp))
  | published _ hquiet _ _ => exact h.frame rfl rfl rfl (fun _ => id) fun _ => Threads.Owed.fresh hquiet
  | exited _ _ => exact h.frame rfl rfl rfl (fun _ => id) fun _ => id
  | expired => exact h.frame rfl rfl rfl (fun _ => id) fun _ => id
  | outputFailed _ hquiet _ => exact h.frame rfl rfl rfl (fun _ => id) fun _ => Threads.Owed.fresh hquiet
  | moved hworker _ hgoes => exact h.moved hworker hgoes
  | threw _ _ _ _ => exact hgone rfl rfl
  | opened _ _ _ => exact hgone rfl rfl
  | rechecked _ _ _ => exact hgone rfl rfl
  | endReached _ _ _ => exact hgone rfl rfl
  | ensured _ _ _ => exact hgone rfl rfl
  | outputStarted _ _ _ _ => exact hgone rfl rfl
  | outputUnstarted _ _ _ _ _ => exact hgone rfl rfl
  | sessionBegun _ _ _ => exact hgone rfl rfl
  | submitted _ _ _ => exact hgone rfl rfl
  | stopsInput _ _ _ => exact hgone rfl rfl
  | sessionClosed _ _ hpc _ =>
    refine hgone rfl ?_
    rcases hpc with ⟨-, rfl⟩ | ⟨-, rfl⟩
    · rfl
    · rfl
  | @finished worker _ _ _ =>
    refine hgone rfl ?_
    show (if worker.eof then Pc.settling else Pc.done).submits = false
    split
    · rfl
    · rfl
  | ended _ _ _ _ _ _ _ => exact hgone rfl rfl
  | reaperTook _ _ => exact h.frame rfl rfl rfl (fun _ => id) fun _ => id
  | reaperDone _ _ _ => exact h.frame rfl rfl rfl (fun _ => id) fun _ => id
  | @reaperStopped id _ _ =>
    refine h.frame rfl rfl rfl (fun i hi => ?_) fun _ howed => howed
    show (Function.update s.outputs id { s.outputs id with live := false } i).draining = true
    by_cases heq : i = id
    · subst heq
      rw [Function.update_self]
      exact hi
    · rw [Function.update_of_ne heq]
      exact hi
  | collected _ => exact h.frame rfl rfl rfl (fun _ => id) fun _ => id
  | aborts _ htodo _ => exact h.frame rfl rfl rfl (fun _ => id) fun _ => Threads.Owed.fresh htodo
  | ownerEnsured howner _ =>
    have hphase := hs.phase
    rw [howner] at hphase
    exact hnone (ensureRemuxer_worker.trans hphase.2.1)
  | reaperLaunched _ _ => exact h.frame rfl rfl rfl (fun _ => id) fun _ => id
  | workerLaunched _ _ => exact hgone rfl rfl
  | aborted _ htodo => exact h.frame rfl rfl rfl (fun _ => id) fun _ => Threads.Owed.fresh htodo
  | joinedWorker _ _ _ => exact hnone rfl
  | joinedInput _ _ => exact h.frame rfl rfl rfl (fun _ => id) fun _ => id
  | ownerClosed howner _ hcloses =>
    have hphase := hs.phase
    rw [howner] at hphase
    exact hnone (hcloses.worker_eq.trans hphase)
  | joinedReaper _ _ _ => exact h.frame rfl rfl rfl (fun _ => id) fun _ => id
  | closed _ _ => exact h.frame rfl rfl rfl (fun _ => id) fun _ => id

end RemuxPipeline

end MwStreamer
