import MwStreamer.Input.ProxyStop
import MwStreamer.Input.ProxyLaw
import MwStreamer.Library.Inevitable

/-!
# What a stop of the input proxy leads to

From every state with a recorded stop a read can come to its end, and the control worker to its last status.  The
sections threads are bound to take always go through, so they can be worked off first; then the connection is cancelled
and nothing waits any more.
-/

namespace MwStreamer

namespace AvInputProxy

variable {s s' : AvInputProxy} {events history : List Event} {thread : Thread} {k : ℕ}
  {allows : AvInputProxy → Act → Bool}

/-- The proxy, where only some of its steps are taken. -/
def permitted (allows : AvInputProxy → Act → Bool) : Transition AvInputProxy Event where
  init := system.init
  step s events s' := ∃ act, allows s act = true ∧ s.next act = some (events, s')

theorem permitted_run (hrun : (permitted allows).Run s events s') : system.Run s events s' := by
  induction hrun with
  | refl => exact .refl _
  | snoc _ hstep ih =>
    obtain ⟨act, -, hact⟩ := hstep
    exact .snoc ih ⟨act, hact⟩

/-! ### Working off the sections -/

/-- What the sections threads are bound to take leave alone, or never take back. -/
structure Rests (s s' : AvInputProxy) : Prop where
  control : s'.control = s.control
  readers : s'.readers = s.readers
  consumer : s'.consumer = s.consumer
  stopping : s.stopping = true → s'.stopping = true
  cancelled : ∀ k, (s.inputs k).cancelled = true → (s'.inputs k).cancelled = true
  closed : ∀ k, (s.inputs k).queue.closed = true → (s'.inputs k).queue.closed = true
  packets : ∀ k, (s'.inputs k).packets = (s.inputs k).packets
  quiet : ∀ t, s.todo t = [] → s'.todo t = []

theorem Rests.refl (s : AvInputProxy) : Rests s s :=
  ⟨rfl, rfl, rfl, id, fun _ => id, fun _ => id, fun _ => rfl, fun _ => id⟩

theorem Rests.trans {t : AvInputProxy} (h₁ : Rests s t) (h₂ : Rests t s') : Rests s s' where
  control := h₂.control.trans h₁.control
  readers := h₂.readers.trans h₁.readers
  consumer := h₂.consumer.trans h₁.consumer
  stopping := h₂.stopping ∘ h₁.stopping
  cancelled k := h₂.cancelled k ∘ h₁.cancelled k
  closed k := h₂.closed k ∘ h₁.closed k
  packets k := (h₂.packets k).trans (h₁.packets k)
  quiet t := h₂.quiet t ∘ h₁.quiet t

theorem Performed.rests (h : Performed s thread events s') : Rests s s' := by
  have hquiet : ∀ {task : Task} {rest tasks : List Task}, s.todo thread = task :: rest → ∀ t, s.todo t = [] →
      Function.update s.todo thread tasks t = [] := by
    intro task rest tasks htodo t ht
    by_cases heq : t = thread
    · subst heq
      rw [htodo] at ht
      cases ht
    · rw [Function.update_of_ne heq]
      exact ht
  cases h with
  | stopRecorded htodo => exact ⟨rfl, rfl, rfl, fun _ => rfl, fun _ => id, fun _ => id, fun _ => rfl, hquiet htodo⟩
  | cancelled htodo =>
    exact ⟨rfl, rfl, rfl, id, setInput_keeps (P := fun i => i.cancelled = true) fun _ => rfl,
      setInput_keeps (P := fun i => i.queue.closed = true) id, setInput_same AvInput.packets rfl, hquiet htodo⟩
  | queueClosed htodo =>
    exact ⟨rfl, rfl, rfl, id, setInput_keeps (P := fun i => i.cancelled = true) id,
      setInput_keeps (P := fun i => i.queue.closed = true) fun _ => rfl, setInput_same AvInput.packets rfl,
      hquiet htodo⟩
  | inputPublished htodo =>
    exact ⟨rfl, rfl, rfl, id, setInput_keeps (P := fun i => i.cancelled = true) id,
      setInput_keeps (P := fun i => i.queue.closed = true) id, setInput_same AvInput.packets rfl, hquiet htodo⟩
  | foreign htodo _ => exact ⟨rfl, rfl, rfl, id, fun _ => id, fun _ => id, fun _ => rfl, hquiet htodo⟩
  | inputChanged htodo _ => exact ⟨rfl, rfl, rfl, id, fun _ => id, fun _ => id, fun _ => rfl, hquiet htodo⟩
  | published htodo => exact ⟨rfl, rfl, rfl, id, fun _ => id, fun _ => id, fun _ => rfl, hquiet htodo⟩
  | announced htodo => exact ⟨rfl, rfl, rfl, id, fun _ => id, fun _ => id, fun _ => rfl, hquiet htodo⟩

/-- How many sections this one leads to, itself among them. -/
def Task.weight : Task → ℕ
  | .requestStop => 3
  | .cancel _ => 2
  | .closeQueue _ => 1
  | .publishInput _ _ => 5
  | .inputChanged _ _ => 3
  | .publish _ _ _ _ => 1
  | .announce => 1

/-- A section always goes through, and what it leads to is less. -/
theorem perform_lowers {task : Task} {rest : List Task} (htodo : s.todo thread = task :: rest) :
    ∃ events s' tasks, s.perform thread = some (events, s') ∧ s'.todo thread = tasks ++ rest ∧
      (tasks.map Task.weight).sum < task.weight := by
  have hclose : ∀ {b : Bool} {j : ℕ}, ((if b then [Task.closeQueue j] else []).map Task.weight).sum ≤ 1 := by
    intro b j
    cases b <;> simp [Task.weight]
  cases task with
  | requestStop =>
    refine ⟨_, _, s.input.toList.map Task.cancel, by rw [perform, htodo], bind_todo_self, ?_⟩
    cases s.input <;> simp [Task.weight]
  | cancel k =>
    refine ⟨_, _, if (s.inputs k).packets then [Task.closeQueue k] else [], by rw [perform, htodo], bind_todo_self, ?_⟩
    exact Nat.lt_of_le_of_lt hclose (by simp [Task.weight])
  | closeQueue k => exact ⟨_, _, [], by rw [perform, htodo], by exact bind_todo_self, by simp [Task.weight]⟩
  | publishInput k status =>
    refine ⟨_, _, (if status.state.closesQueue && (s.inputs k).packets then [Task.closeQueue k] else []) ++
      [.inputChanged k status], by rw [perform, htodo], ?_, ?_⟩
    · rw [bind_todo_self, List.append_assoc]
      rfl
    · have hle := hclose (b := status.state.closesQueue && (s.inputs k).packets) (j := k)
      rw [List.map_append, List.sum_append]
      simp only [List.map_cons, List.map_nil, List.sum_cons, List.sum_nil, Task.weight] at hle ⊢
      omega
  | inputChanged k status =>
    by_cases hinput : s.input = some k
    · refine ⟨_, _, if s.stopping && status.state == .opening then [Task.cancel k] else [], by
        rw [perform, htodo]
        exact if_neg (not_not.mpr hinput), bind_todo_self, ?_⟩
      split <;> simp [Task.weight]
    · refine ⟨_, _, [], by
        rw [perform, htodo]
        exact if_pos hinput, by exact bind_todo_self, by simp [Task.weight]⟩
  | publish state retries delay error =>
    exact ⟨_, _, [], by rw [perform, htodo], by exact bind_todo_self, by simp [Task.weight]⟩
  | announce => exact ⟨_, _, [], by rw [perform, htodo], by exact bind_todo_self, by simp [Task.weight]⟩

/-- A thread works off the first sections of its list. -/
theorem works_off (hallows : ∀ s t, allows s (.perform t) = true) {first rest : List Task}
    (htodo : s.todo thread = first ++ rest) :
    ∃ events s', (permitted allows).Run s events s' ∧ Rests s s' ∧ s'.todo thread = rest := by
  induction hweight : (first.map Task.weight).sum using Nat.strong_induction_on generalizing s first with
  | h n ih =>
    cases first with
    | nil => exact ⟨[], s, .refl s, .refl s, htodo⟩
    | cons task first =>
      have hhead : s.todo thread = task :: (first ++ rest) := htodo
      obtain ⟨events, t, tasks, hperform, htodo', hlower⟩ := perform_lowers hhead
      rw [← List.append_assoc] at htodo'
      have hless : ((tasks ++ first).map Task.weight).sum < n := by
        rw [← hweight, List.map_append, List.sum_append, List.map_cons, List.sum_cons]
        omega
      obtain ⟨later, s', hrun, hrests, hdone⟩ := ih _ hless htodo' rfl
      exact ⟨events ++ later, s', .trans (.single ⟨.perform thread, hallows s thread, hperform⟩) hrun,
        (perform_performed hperform).rests.trans hrests, hdone⟩

/-- A thread works off its list. -/
theorem works_all_off (hallows : ∀ s t, allows s (.perform t) = true) (s : AvInputProxy) (thread : Thread) :
    ∃ events s', (permitted allows).Run s events s' ∧ Rests s s' ∧ s'.todo thread = [] :=
  works_off hallows (List.append_nil _).symm

/-- The queue of a sealed connection gets closed. -/
theorem closes_sealed (hallows : ∀ s t, allows s (.perform t) = true) (h : Sealed s k) :
    ∃ events s', (permitted allows).Run s events s' ∧ Rests s s' ∧ (s'.inputs k).queue.closed = true := by
  rcases h with hclosed | ⟨t, ht⟩
  · exact ⟨[], s, .refl s, .refl s, hclosed⟩
  · obtain ⟨first, rest, hsplit⟩ := List.append_of_mem ht
    obtain ⟨events, u, hrun, hrests, htodo⟩ := works_off hallows hsplit
    have hperform : u.perform t = some ([], (u.setInput k (u.inputs k).closeQueue).bind t rest) := by
      rw [perform, htodo]
    refine ⟨events ++ [], _, .snoc hrun ⟨.perform t, hallows u t, hperform⟩,
      hrests.trans (perform_performed hperform).rests, ?_⟩
    rw [show ((u.setInput k _).bind t rest).inputs k = _ from setInput_self]
    rfl

/-- A stop that has been recorded comes to the connection. -/
theorem interrupts (hallows : ∀ s t, allows s (.perform t) = true) (hs : system.Reachable s) (hstop : s.stopping = true)
    (hplace : s.control.pc.input? = some k) (hearly : s.control.pc.early = false)
    (hleaves : s.control.pc.leaves = false) (hk : s.control.pc.begins = true ∨ s.readers k ≠ .absent) :
    ∃ events s', (permitted allows).Run s events s' ∧ Rests s s' ∧ (s'.inputs k).cancelled = true ∧
      (s'.inputs k).queue.closed = true ∧ s'.todo .control = [] := by
  obtain ⟨events, t, hrun, hrests, hempty⟩ := works_all_off hallows s .control
  have ht : system.Reachable t := hs.run (permitted_run hrun)
  have hplace' : t.control.pc.input? = some k := by rw [hrests.control]; exact hplace
  have hk' : t.control.pc.begins = true ∨ t.readers k ≠ .absent := by rw [hrests.control, hrests.readers]; exact hk
  have hpackets : (t.inputs k).packets = true := by
    rcases hk' with hbegins | hlive
    · exact ((placed ht).inputs k).begins hplace' hbegins
    · exact (severs ht).packets k hplace' (by rw [hrests.control]; exact hleaves) hlive
  -- the control worker has nothing left to tell, so it is a caller who carries the stop
  rcases (severs ht).stops (hrests.stopping hstop) k hplace' (by rw [hrests.control]; exact hearly) hk' with
    hsevered | ⟨n, hn⟩ | hre
  · obtain ⟨later, u, hlater, hrests', hclosed⟩ := closes_sealed hallows hsevered.2
    exact ⟨_, u, hrun.trans hlater, hrests.trans hrests', hrests'.cancelled k hsevered.1, hclosed,
      hrests'.quiet _ hempty⟩
  · obtain ⟨first, rest, hsplit⟩ := List.append_of_mem hn
    obtain ⟨more, u, hmore, hrests', htodo⟩ := works_off hallows hsplit
    have hperform : u.perform (.user n) = some ([], (u.setInput k (u.inputs k).cancel).bind (.user n)
        ((if (u.inputs k).packets then [Task.closeQueue k] else []) ++ rest)) := by
      rw [perform, htodo]
    have hstep := (perform_performed hperform).rests
    have hsealed : Sealed ((u.setInput k (u.inputs k).cancel).bind (.user n)
        ((if (u.inputs k).packets then [Task.closeQueue k] else []) ++ rest)) k := by
      refine .inr ⟨.user n, ?_⟩
      rw [bind_todo_self, (hrests'.packets k).trans hpackets]
      exact List.mem_cons_self
    obtain ⟨later, v, hlater, hrests'', hclosed⟩ := closes_sealed hallows hsealed
    refine ⟨events ++ (more ++ [] ++ later), v,
      hrun.trans (.trans (.snoc hmore ⟨_, hallows u (.user n), hperform⟩) hlater),
      hrests.trans ((hrests'.trans hstep).trans hrests''), hrests''.cancelled k ?_, hclosed,
      hrests''.quiet _ (hstep.quiet _ (hrests'.quiet _ hempty))⟩
    rw [show ((u.setInput k _).bind (.user n) _).inputs k = _ from setInput_self]
    rfl
  · exact absurd hre (not_reapplies hempty)

/-! ### The read that waits -/

/-- The steps of a read and of the threads that are bound to something. -/
def reading (_ : AvInputProxy) : Act → Bool
  | .perform _ | .consume => true
  | _ => false

/-- How many steps a read has before it at most. -/
def Consumer.left : Consumer → ℕ
  | .idle => 0
  | .entering _ => 1
  | .returning _ _ => 1
  | .missing _ _ _ => 2
  | .acknowledging _ _ => 2
  | .answering _ _ _ _ => 3
  | .popping _ _ _ => 4
  | .taking _ _ _ => 5

/-- Once a stop is recorded, a read that need not wait for its queue goes on. -/
theorem consume_lowers (hstop : s.stopping = true) (hbusy : s.consumer ≠ .idle)
    (hqueue : ∀ mode k d, s.consumer = .popping mode k d → (s.inputs k).queue.closed = true) :
    ∃ events s', s.consume = some (events, s') ∧ s'.consumer.left < s.consumer.left := by
  have hready : ∀ mode, s.ready mode = true := fun mode => by simp [ready, hstop]
  have hchanged : ∀ mode k, s.changed mode k = true := fun mode k => by simp [changed, hstop]
  cases hconsumer : s.consumer with
  | idle => exact absurd hconsumer hbusy
  | entering mode =>
    cases hwoken : mode.onStateChange && s.readStateChanged with
    | true =>
      refine ⟨[.woken s.status.info], { s with readStateChanged := false, consumer := .idle }, ?_,
        by simp [Consumer.left]⟩
      rw [consume, hconsumer]
      simp [hready, hwoken]
    | false =>
      refine ⟨[.returned none .null s.status.info], { s with consumer := .idle }, ?_, by simp [Consumer.left]⟩
      rw [consume, hconsumer]
      simp [hready, hwoken, hstop]
  | taking mode k d =>
    refine ⟨_, _, by rw [consume, hconsumer], ?_⟩
    show Consumer.left (if (s.inputs k).readable then .popping mode k d else .missing mode k d) < _
    split <;> simp [Consumer.left]
  | popping mode k d =>
    have hready : mode.waits = false ∨ (s.inputs k).queued ≠ [] ∨ (s.inputs k).queue.closed = true :=
      .inr (.inr (hqueue mode k d hconsumer))
    obtain ⟨⟨popped, input⟩, hpop⟩ := (s.inputs k).pop_ready hready
    refine ⟨[], { s.setInput k input with consumer := .answering mode k d popped }, ?_, by simp [Consumer.left]⟩
    rw [consume, hconsumer]
    simp only [hpop]
    rfl
  | answering mode k d popped =>
    cases hanswer : (s.inputs k).answer popped with
    | packet packet =>
      exact ⟨[.returned (some k) (.packet packet) d], { s with consumer := .idle },
        by rw [consume, hconsumer]; simp only [hanswer], by simp [Consumer.left]⟩
    | eof =>
      exact ⟨[], { s with consumer := .acknowledging k d }, by rw [consume, hconsumer]; simp only [hanswer],
        by simp [Consumer.left]⟩
    | null =>
      exact ⟨[], { s with consumer := .missing mode k d }, by rw [consume, hconsumer]; simp only [hanswer],
        by simp [Consumer.left]⟩
  | acknowledging k d =>
    refine ⟨[], { s with consumer := .returning k d }, ?_, by simp [Consumer.left]⟩
    rw [consume, hconsumer]
    simp [hstop]
  | returning k d => exact ⟨_, _, by rw [consume, hconsumer], by simp [Consumer.left]⟩
  | missing mode k d =>
    cases hwaits : mode.waits with
    | true =>
      refine ⟨[], { s with consumer := .entering mode }, ?_, by simp [Consumer.left]⟩
      rw [consume, hconsumer]
      simp [hwaits, hchanged]
    | false =>
      refine ⟨[.returned none .null d], { s with consumer := .idle }, ?_, by simp [Consumer.left]⟩
      rw [consume, hconsumer]
      simp [hwaits]

/-- The queue a read waits for gets closed. -/
theorem releases (hs : system.Reachable s) (hstop : s.stopping = true) :
    ∃ events s', (permitted reading).Run s events s' ∧ Rests s s' ∧
      ∀ mode k d, s.consumer = .popping mode k d → (s'.inputs k).queue.closed = true := by
  have hallows : ∀ s t, reading s (.perform t) = true := fun _ _ => rfl
  by_cases hpopping : ∃ mode k d, s.consumer = .popping mode k d
  · obtain ⟨mode, k, d, hconsumer⟩ := hpopping
    have hholds := (described hs).holds k (by rw [hconsumer]; rfl)
    have hclosing : ∃ events s', (permitted reading).Run s events s' ∧ Rests s s' ∧
        (s'.inputs k).queue.closed = true := by
      by_cases hgone : s.control.pc.input? = some k → s.control.pc.leaves = true
      · exact closes_sealed hallows ((severs hs).gone k hholds.made hgone hholds.present)
      · rw [Classical.not_imp, Bool.not_eq_true] at hgone
        have hearly : s.control.pc.early = false := by
          cases hearly : s.control.pc.early with
          | false => rfl
          | true =>
            exact absurd (((placed hs).inputs k).unlaunched hgone.1 (Pc.early_unlaunched hearly)) hholds.present
        obtain ⟨events, t, hrun, hrests, -, hclosed, -⟩ := interrupts hallows hs hstop hgone.1 hearly hgone.2
          (.inr hholds.present)
        exact ⟨events, t, hrun, hrests, hclosed⟩
    obtain ⟨events, t, hrun, hrests, hclosed⟩ := hclosing
    refine ⟨events, t, hrun, hrests, fun mode' k' d' hsame => ?_⟩
    obtain ⟨-, rfl, -⟩ := Consumer.popping.inj (hconsumer.symm.trans hsame)
    exact hclosed
  · exact ⟨[], s, .refl s, .refl s, fun mode k d hconsumer => absurd ⟨mode, k, d, hconsumer⟩ hpopping⟩

/-- **A read comes to its end once a stop is recorded.** -/
theorem read_released (hs : system.Reachable s) (hstop : s.stopping = true) :
    ∃ events s', (permitted reading).Run s events s' ∧ s'.consumer = .idle := by
  have hlower : ∀ s : AvInputProxy, system.Reachable s ∧ s.stopping = true → s.consumer ≠ .idle →
      ∃ events s', (permitted reading).Run s events s' ∧ (system.Reachable s' ∧ s'.stopping = true) ∧
        s'.consumer.left < s.consumer.left := by
    rintro s ⟨hs, hstop⟩ hbusy
    obtain ⟨events, t, hrun, hrests, hclosed⟩ := releases hs hstop
    have ht : system.Reachable t := hs.run (permitted_run hrun)
    obtain ⟨last, u, hconsume, hlower⟩ := consume_lowers (hrests.stopping hstop) (by rw [hrests.consumer]; exact hbusy)
      (fun mode k d hconsumer => hclosed mode k d (hrests.consumer ▸ hconsumer))
    rw [hrests.consumer] at hlower
    have hstep : system.step t last u := ⟨.consume, hconsume⟩
    have hstop' := stopping_run ht (hrests.stopping hstop) (.single hstep)
    exact ⟨events ++ last, u, .snoc hrun ⟨.consume, rfl, hconsume⟩, ⟨.step ht hstep, hstop'⟩, hlower⟩
  obtain ⟨events, s', hrun, -, hidle⟩ := Transition.Run.reaches (fun s => system.Reachable s ∧ s.stopping = true)
    (fun s => s.consumer = .idle) (fun s => s.consumer.left) hlower ⟨hs, hstop⟩
  exact ⟨events, s', hrun, hidle⟩

/-! ### The control worker -/

/-- The steps of the control worker, of the readers and of the threads that are bound to something; the I/O of a
connection answers where the connection is cancelled. -/
def interrupted (s : AvInputProxy) : Act → Bool
  | .perform _ => true
  | .work _ =>
    match s.control.pc with
    | .opening k | .probing k => (s.inputs k).cancelled
    | _ => true
  | .read k _ => s.readers k != .reading || (s.inputs k).cancelled
  | _ => false

/-- How many places the control worker has before it at most, once a stop is recorded. -/
def Pc.left : Pc → ℕ
  | .done => 0
  | .checking | .deciding _ | .delaying => 1
  | .releasing _ _ => 2
  | .discarding _ _ => 3
  | .detaching _ _ => 4
  | .joining _ _ => 5
  | .closing _ _ => 6
  | .retiring _ _ => 7
  | .waiting _ | .giving _ _ => 8
  | .offering _ => 9
  | .connecting _ => 10
  | .settling _ => 11
  | .launching _ => 12
  | .describing _ _ => 13
  | .probing _ => 14
  | .opening _ => 15
  | .queueing _ => 16
  | .uncancelling _ => 17
  | .rechecking _ => 18
  | .creating => 19

/-- What the control worker waits for: that its reader has ended. -/
def Pc.joins (pc : Pc) (s : AvInputProxy) : Prop :=
  ∀ k terminal, pc = .joining k terminal → (s.readers k = .absent ∨ s.readers k = .done) ∧ s.todo (.reader k) = []

/-- Once a stop is recorded, the control worker goes on where it need not wait for the reader or the I/O. -/
theorem work_lowers (hstop : s.stopping = true) (hrunning : s.control.pc ≠ .done)
    (hjoins : s.control.pc.joins s) (hio : ∀ k, s.control.pc = .opening k ∨ s.control.pc = .probing k →
      (s.inputs k).cancelled = true) (hdiscards : ∀ k terminal, s.control.pc ≠ .discarding k terminal) :
    ∃ events s', s.work {} = some (events, s') ∧ s'.control.pc.left < s.control.pc.left := by
  cases hpc : s.control.pc with
  | done => exact absurd hpc hrunning
  | discarding k terminal => exact absurd hpc (hdiscards k terminal)
  | checking =>
    refine ⟨[], s.finish .stopped 0 none, by rw [work, hpc]; simp [hstop], ?_⟩
    simp [Pc.left, finish, announces, bind, goto]
  | delaying =>
    refine ⟨[], s.finish .stopped 0 none, by rw [work, hpc]; simp [hstop], ?_⟩
    simp [Pc.left, finish, announces, bind, goto]
  | deciding terminal =>
    refine ⟨[], s.finish .stopped 0 none, by rw [work, hpc]; simp [hstop], ?_⟩
    simp [Pc.left, finish, announces, bind, goto]
  | rechecking k =>
    exact ⟨[], s.goto (.retiring k {}), by rw [work, hpc]; simp [hstop], by simp [Pc.left, goto]⟩
  | waiting k => exact ⟨[], s.goto (.retiring k {}), by rw [work, hpc]; simp [hstop], by simp [Pc.left, goto]⟩
  | connecting k => exact ⟨[], s.goto (.offering k), by rw [work, hpc]; simp [hstop], by simp [Pc.left, goto]⟩
  | opening k =>
    refine ⟨[], s.goto (.giving k (.ffmpeg averrorExit "avformat_open_input")), ?_, by simp [Pc.left, goto]⟩
    rw [work, hpc]
    simp [AvInput.checkIo, hio k (.inl hpc)]
  | probing k =>
    refine ⟨[], s.goto (.giving k (.ffmpeg averrorExit "avformat_find_stream_info")), ?_, by simp [Pc.left, goto]⟩
    rw [work, hpc]
    simp [AvInput.checkIo, hio k (.inr hpc)]
  | launching k =>
    exact ⟨_, (s.setReader k .checking).goto (.settling k), by rw [work, hpc]; rfl, by simp [Pc.left, goto]⟩
  | closing k terminal =>
    by_cases hclosed : (s.inputs k).status.state = .closed
    · exact ⟨[], s.goto (.releasing k terminal), by rw [work, hpc]; simp [hclosed], by simp [Pc.left, goto]⟩
    · exact ⟨[], (s.goto (.joining k terminal)).bind .control [.cancel k], by rw [work, hpc]; simp [hclosed],
        by simp [Pc.left, goto, bind]⟩
  | joining k terminal =>
    exact ⟨[], s.goto (.detaching k terminal), by rw [work, hpc]; exact if_pos (hjoins k terminal hpc),
      by simp [Pc.left, goto]⟩
  | creating | uncancelling k | queueing k | describing k info | giving k e | settling k | offering k
  | retiring k terminal | detaching k terminal | releasing k terminal =>
    exact ⟨_, _, by rw [work, hpc], by simp [Pc.left, goto, bind, announces]⟩

theorem interrupted_allows (s : AvInputProxy) (t : Thread) : interrupted s (.perform t) = true := rfl

/-- A step of the control worker that is not one of its waits for the connection. -/
theorem work_run (hempty : s.todo .control = []) (hallowed : interrupted s (.work {}) = true)
    (hwork : s.work {} = some (events, s')) : (permitted interrupted).Run s events s' :=
  .single ⟨.work {}, hallowed, by
    rw [next, hempty]
    exact hwork⟩

/-- The control worker discards what is left in the queue. -/
theorem discards {terminal : AvInputStatus} (hpc : s.control.pc = .discarding k terminal)
    (hempty : s.todo .control = []) :
    ∃ events s', (permitted interrupted).Run s events s' ∧ s'.control.pc.left < s.control.pc.left := by
  induction hlength : (s.inputs k).queued.length generalizing s with
  | zero =>
    have hqueue : (s.inputs k).queued = [] := List.eq_nil_of_length_eq_zero hlength
    obtain ⟨⟨popped, input⟩, hpop⟩ := (s.inputs k).pop_ready (.inl (rfl : false = false))
    obtain ⟨hhead, -, -⟩ := AvInput.pop_cases hpop
    rw [hqueue] at hhead
    obtain rfl : popped = none := hhead
    refine ⟨[], (s.goto (.releasing k terminal)).bind .control [.publishInput k { state := .closed }],
      work_run hempty (by simp [interrupted, hpc]) ?_, by simp [hpc, Pc.left, goto, bind]⟩
    rw [work, hpc]
    simp only [hpop]
  | succ n ih =>
    obtain ⟨packet, rest, hqueue⟩ : ∃ packet rest, (s.inputs k).queued = packet :: rest := by
      cases hqueue : (s.inputs k).queued with
      | nil =>
        rw [hqueue] at hlength
        cases hlength
      | cons packet rest => exact ⟨packet, rest, rfl⟩
    obtain ⟨⟨popped, input⟩, hpop⟩ := (s.inputs k).pop_ready (.inl (rfl : false = false))
    obtain ⟨hhead, hinput, -⟩ := AvInput.pop_cases hpop
    rw [hqueue] at hhead hinput
    obtain rfl : popped = some packet := hhead
    have hwork : s.work {} = some ([.discarded k packet], s.setInput k input) := by
      rw [work, hpc]
      simp only [hpop]
    have hless : ((s.setInput k input).inputs k).queued.length = n := by
      rw [setInput_self, hinput]
      rw [hqueue] at hlength
      exact Nat.succ_injective hlength
    obtain ⟨later, s', hrun, hlower⟩ := ih (s := s.setInput k input) hpc hempty hless
    exact ⟨_, s', (work_run hempty (by simp [interrupted, hpc]) hwork).trans hrun, hlower⟩

/-- The reader of a connection that is cancelled comes to its end. -/
theorem reader_ends (hcancelled : (s.inputs k).cancelled = true) (hclosed : (s.inputs k).queue.closed = true)
    (hempty : s.todo .control = []) (hlive : s.readers k ≠ .absent) :
    ∃ events s', (permitted interrupted).Run s events s' ∧ s'.control = s.control ∧ s'.todo .control = [] ∧
      s'.readers k = .done ∧ s'.todo (.reader k) = [] := by
  obtain ⟨events, t, hrun, hrests, hquiet⟩ := works_all_off interrupted_allows s (.reader k)
  have hcancelled' := hrests.cancelled k hcancelled
  have hclosed' := hrests.closed k hclosed
  by_cases hdone : s.readers k = .done
  · exact ⟨events, t, hrun, hrests.control, hrests.quiet _ hempty, by rw [hrests.readers, hdone], hquiet⟩
  · -- one step more is the reader's last
    have hlast : ∃ last status, t.read k .again = some (last, t.readerEnds k status) := by
      have hreader : t.readers k = s.readers k := by rw [hrests.readers]
      cases hwhere : s.readers k with
      | absent => exact absurd hwhere hlive
      | done => exact absurd hwhere hdone
      | checking | reading | draining =>
        refine ⟨[], { state := .cancelled }, ?_⟩
        rw [read, hreader, hwhere]
        simp [hcancelled']
      | pushing packet =>
        refine ⟨[], { state := .cancelled }, ?_⟩
        have hpush : (t.inputs k).push packet = some (false, t.inputs k) := by
          rw [AvInput.push, BlockingQueue.pushImpl, if_neg (by simp [hclosed']), if_pos hclosed']
        rw [read, hreader, hwhere]
        simp only [hpush]
      | failing e =>
        refine ⟨[], (t.inputs k).failure e, ?_⟩
        rw [read, hreader, hwhere]
    obtain ⟨last, status, hread⟩ := hlast
    have hallowed : interrupted t (.read k .again) = true := by simp [interrupted, hcancelled']
    have hstep : (permitted interrupted).step t last (t.readerEnds k status) := ⟨_, hallowed, by
      rw [next, hquiet]
      exact hread⟩
    obtain ⟨later, u, hlater, hrests', hquiet'⟩ := works_all_off interrupted_allows (t.readerEnds k status) (.reader k)
    refine ⟨_, u, (hrun.snoc hstep).trans hlater, hrests'.control.trans hrests.control, hrests'.quiet _ ?_, ?_, hquiet'⟩
    · rw [show (t.readerEnds k status).todo .control = t.todo .control from bind_todo_of_ne (by simp)]
      exact hrests.quiet _ hempty
    · rw [hrests'.readers]
      exact setReader_self

/-- What the control worker waits for comes. -/
theorem prepares (hs : system.Reachable s) (hstop : s.stopping = true) (hempty : s.todo .control = []) :
    ∃ events t, (permitted interrupted).Run s events t ∧ t.control = s.control ∧ t.todo .control = [] ∧
      t.control.pc.joins t ∧ ∀ k, t.control.pc = .opening k ∨ t.control.pc = .probing k →
        (t.inputs k).cancelled = true := by
  have hstay : (∀ k terminal, s.control.pc = .joining k terminal →
      (s.readers k = .absent ∨ s.readers k = .done) ∧ s.todo (.reader k) = []) →
      (∀ k, s.control.pc ≠ .opening k) → (∀ k, s.control.pc ≠ .probing k) →
      ∃ events t, (permitted interrupted).Run s events t ∧ t.control = s.control ∧ t.todo .control = [] ∧
        t.control.pc.joins t ∧ ∀ k, t.control.pc = .opening k ∨ t.control.pc = .probing k →
          (t.inputs k).cancelled = true := fun hjoins hopening hprobing =>
    ⟨[], s, .refl s, rfl, hempty, hjoins, fun k hk => (hk.elim (hopening k) (hprobing k)).elim⟩
  -- the I/O of a connection that opens is interrupted
  have hopens : ∀ k, s.control.pc.input? = some k → s.control.pc.begins = true →
      (∀ j terminal, s.control.pc ≠ .joining j terminal) →
      ∃ events t, (permitted interrupted).Run s events t ∧ t.control = s.control ∧ t.todo .control = [] ∧
        t.control.pc.joins t ∧ ∀ j, t.control.pc = .opening j ∨ t.control.pc = .probing j →
          (t.inputs j).cancelled = true := by
    intro k hplace hbegins hjoins
    have hearly : s.control.pc.early = false := by
      cases hpc : s.control.pc <;> rw [hpc] at hbegins <;> first | rfl | cases hbegins
    have hleaves : s.control.pc.leaves = false := by
      cases hpc : s.control.pc <;> rw [hpc] at hbegins <;> first | rfl | cases hbegins
    obtain ⟨events, t, hrun, hrests, hcancelled, -, hempty'⟩ := interrupts interrupted_allows hs hstop hplace hearly
      hleaves (.inl hbegins)
    refine ⟨events, t, hrun, hrests.control, hempty', fun j terminal hpc => ?_, fun j hj => ?_⟩
    · rw [hrests.control] at hpc
      exact absurd hpc (hjoins j terminal)
    · rw [hrests.control] at hj
      obtain rfl : k = j := by
        rcases hj with hj | hj <;> rw [hj] at hplace <;> exact (Option.some.inj hplace).symm
      exact hcancelled
  match hpc : s.control.pc with
  | .opening k => exact hopens k (by rw [hpc]; rfl) (by rw [hpc]; rfl) (by rw [hpc]; simp)
  | .probing k => exact hopens k (by rw [hpc]; rfl) (by rw [hpc]; rfl) (by rw [hpc]; simp)
  | .joining k terminal =>
    by_cases hlive : s.readers k = .absent
    · refine hstay (fun j last hj => ?_) (by rw [hpc]; simp) (by rw [hpc]; simp)
      obtain ⟨rfl, -⟩ := Pc.joining.inj (hpc.symm.trans hj)
      exact ⟨.inl hlive, (((placed hs).inputs k).absent hlive).2⟩
    · obtain ⟨events, t, hrun, hrests, hcancelled, hclosed, hempty'⟩ := interrupts (k := k) interrupted_allows hs hstop
        (by rw [hpc]; rfl) (by rw [hpc]; rfl) (by rw [hpc]; rfl) (.inr hlive)
      obtain ⟨later, u, hlater, hcontrol, hempty'', hdone, hquiet⟩ := reader_ends hcancelled hclosed hempty'
        (by rw [hrests.readers]; exact hlive)
      have hsame : u.control.pc = .joining k terminal := by rw [hcontrol, hrests.control, hpc]
      refine ⟨_, u, hrun.trans hlater, hcontrol.trans hrests.control, hempty'', fun j last hj => ?_, fun j hj => ?_⟩
      · obtain ⟨rfl, -⟩ := Pc.joining.inj (hsame.symm.trans hj)
        exact ⟨.inr hdone, hquiet⟩
      · rw [hsame] at hj
        exact absurd hj (by simp)
  | .checking | .creating | .rechecking _ | .uncancelling _ | .queueing _ | .describing _ _ | .launching _ | .giving _ _
  | .settling _ | .connecting _ | .offering _ | .waiting _ | .retiring _ _ | .closing _ _ | .detaching _ _
  | .discarding _ _ | .releasing _ _ | .deciding _ | .delaying | .done =>
    exact hstay (by rw [hpc]; simp) (by rw [hpc]; simp) (by rw [hpc]; simp)

/-- The control worker goes on by one place at least. -/
theorem worker_proceeds (hs : system.Reachable s) (hstop : s.stopping = true) (hempty : s.todo .control = [])
    (hrunning : s.control.pc ≠ .done) :
    ∃ events s', (permitted interrupted).Run s events s' ∧ s'.todo .control = [] ∧
      s'.control.pc.left < s.control.pc.left := by
  have hmoves : ∃ events t, (permitted interrupted).Run s events t ∧ t.control.pc.left < s.control.pc.left := by
    by_cases hdiscards : ∃ k terminal, s.control.pc = .discarding k terminal
    · obtain ⟨k, terminal, hpc⟩ := hdiscards
      exact discards hpc hempty
    · obtain ⟨events, t, hrun, hcontrol, hempty', hjoins, hio⟩ := prepares hs hstop hempty
      have hstop' := stopping_run hs hstop (permitted_run hrun)
      obtain ⟨last, u, hwork, hlower⟩ := work_lowers hstop' (by rw [hcontrol]; exact hrunning) hjoins hio
        fun k terminal hpc => hdiscards ⟨k, terminal, hcontrol ▸ hpc⟩
      have hallowed : interrupted t (.work {}) = true := by
        show (match t.control.pc with
          | .opening k | .probing k => (t.inputs k).cancelled
          | _ => true) = true
        split
        · rename_i k hpc
          exact hio k (.inl hpc)
        · rename_i k hpc
          exact hio k (.inr hpc)
        · rfl
      exact ⟨_, u, hrun.trans (work_run hempty' hallowed hwork), hcontrol ▸ hlower⟩
  obtain ⟨events, t, hrun, hlower⟩ := hmoves
  obtain ⟨later, u, hlater, hrests, hempty'⟩ := works_all_off interrupted_allows t .control
  exact ⟨_, u, hrun.trans hlater, hempty', hrests.control ▸ hlower⟩

/-- **The control worker comes to its last status once a stop is recorded.** -/
theorem worker_finishes (hs : system.Reachable s) (hstop : s.stopping = true) :
    ∃ events s', (permitted interrupted).Run s events s' ∧ s'.control.pc = .done ∧ s'.todo .control = [] ∧
      s'.status.state.isTerminal = true := by
  obtain ⟨first, t, hfirst, -, hempty⟩ := works_all_off interrupted_allows s .control
  have ht : system.Reachable t := hs.run (permitted_run hfirst)
  have hlower : ∀ s : AvInputProxy, system.Reachable s ∧ s.stopping = true ∧ s.todo .control = [] →
      s.control.pc ≠ .done → ∃ events s', (permitted interrupted).Run s events s' ∧
        (system.Reachable s' ∧ s'.stopping = true ∧ s'.todo .control = []) ∧
          s'.control.pc.left < s.control.pc.left := by
    rintro s ⟨hs, hstop, hempty⟩ hrunning
    obtain ⟨events, s', hrun, hempty', hlower⟩ := worker_proceeds hs hstop hempty hrunning
    have hrun' := permitted_run hrun
    exact ⟨events, s', hrun, ⟨hs.run hrun', stopping_run hs hstop hrun', hempty'⟩, hlower⟩
  obtain ⟨events, s', hrun, ⟨hs', -, hempty'⟩, hdone⟩ := Transition.Run.reaches
    (fun s => system.Reachable s ∧ s.stopping = true ∧ s.todo .control = []) (fun s => s.control.pc = .done)
    (fun s => s.control.pc.left) hlower ⟨ht, stopping_run hs hstop (permitted_run hfirst), hempty⟩
  refine ⟨_, s', hfirst.trans hrun, hdone, hempty', ?_⟩
  rcases (concludes hs' hdone).2 with hterminal | ⟨state, retries, delay, error, hmem⟩
  · exact hterminal
  · rw [hempty'] at hmem
    cases hmem

/-! ### What comes after a stop -/

/-- Behind a stop no connection is opened that was not made before it. -/
theorem unopened_behind {t : AvInputProxy} (hs : system.Reachable t) (hstop : t.stopping = true)
    (hrun : system.Run t events s) :
    (∀ k, s.control.pc = .uncancelling k → k < t.made) ∧ (∀ k, .opening k ∈ events → k < t.made) ∧
      ∀ k, .created k ∈ events → t.made ≤ k := by
  induction hrun with
  | refl =>
    refine ⟨fun k hpc => ?_, fun k hmem => (by cases hmem), fun k hmem => (by cases hmem)⟩
    have hlast := (placed hs).made k (by rw [hpc]; rfl)
    omega
  | @snoc u s events later hrun hstep ih =>
    obtain ⟨act, hact⟩ := hstep
    obtain ⟨hpc, hopens, hmakes⟩ := ih
    have hstop' := stopping_run hs hstop hrun
    have hmade := (run_kept hs hrun).1
    have hnothing : (s.control.pc = u.control.pc ∨ ∀ k, s.control.pc ≠ .uncancelling k) →
        (∀ k, .opening k ∉ later) → (∀ k, .created k ∉ later) →
        (∀ k, s.control.pc = .uncancelling k → k < t.made) ∧ (∀ k, .opening k ∈ events ++ later → k < t.made) ∧
          ∀ k, .created k ∈ events ++ later → t.made ≤ k := by
      intro hplace hnone hnone'
      refine ⟨fun k hk => ?_, fun k hmem => ?_, fun k hmem => ?_⟩
      · rcases hplace with hplace | hplace
        · exact hpc k (hplace ▸ hk)
        · exact absurd hk (hplace k)
      · exact hopens k ((List.mem_append.mp hmem).resolve_right (hnone k))
      · exact hmakes k ((List.mem_append.mp hmem).resolve_right (hnone' k))
    cases stepped hact with
    | requested _ | called _ _ => exact hnothing (.inl rfl) (by simp) (by simp)
    | performed hperformed => cases hperformed <;> exact hnothing (.inl rfl) (by simp) (by simp)
    | fetched _ hfetched => cases hfetched <;> exact hnothing (.inl rfl) (by simp) (by simp)
    | consumed hconsumed => cases hconsumed <;> exact hnothing (.inl rfl) (by simp) (by simp)
    | worked _ hworked =>
      cases hworked with
      | rechecked _ hgoing => exact absurd (hgoing.symm.trans hstop') Bool.false_ne_true
      | created _ =>
        refine ⟨fun k hk => (by cases hk), fun k hmem => ?_, fun k hmem => ?_⟩
        · exact hopens k ((List.mem_append.mp hmem).resolve_right (by simp))
        · rcases List.mem_append.mp hmem with hold | hnew
          · exact hmakes k hold
          · rw [Event.created.inj (List.mem_singleton.mp hnew)]
            exact hmade
      | @uncancelled j hplace =>
        refine ⟨fun k hk => (by cases hk), fun k hmem => ?_, fun k hmem => ?_⟩
        · rcases List.mem_append.mp hmem with hold | hnew
          · exact hopens k hold
          · rw [Event.opening.inj (List.mem_singleton.mp hnew)]
            exact hpc j hplace
        · exact hmakes k ((List.mem_append.mp hmem).resolve_right (by simp))
      | discarded hplace _ =>
        refine hnothing (.inl rfl) (by simp) (by simp)
      | _ => exact hnothing (.inr fun k => by simp [goto, announces, bind, finish]) (by simp) (by simp)

/-! ### What a read returns behind a stop -/

/-- The read has taken the end of its connection. -/
def Consumer.takesEnd : Consumer → Bool
  | .acknowledging _ _ | .returning _ _ => true
  | _ => false

/-- Once no call of `RequestStop` is under way, the connection a read has captured is cancelled. -/
theorem captured_cancelled (hs : system.Reachable s) (hstop : s.stopping = true)
    (hquiet : ∀ n, s.todo (.user n) = []) (hcaptured : s.consumer.input? = some k) :
    (s.inputs k).cancelled = true := by
  have hholds := (described hs).holds k hcaptured
  have hinput := (placed hs).inputs k
  by_cases hgone : s.control.pc.input? = some k → s.control.pc.leaves = true
  · exact ((hinput.gone hholds.made hgone).2.2).resolve_right hholds.present
  · rw [Classical.not_imp, Bool.not_eq_true] at hgone
    have hlaunched : s.control.pc.unlaunched ≠ true := fun hin => hholds.present (hinput.unlaunched hgone.1 hin)
    have hearly : s.control.pc.early = false := by
      cases hearly : s.control.pc.early with
      | false => rfl
      | true => exact absurd (Pc.early_unlaunched hearly) hlaunched
    rcases (severs hs).stops hstop k hgone.1 hearly (.inr hholds.present) with hsevered | ⟨n, hn⟩ | ⟨hpc, -⟩
    · exact hsevered.1
    · rw [hquiet n] at hn
      cases hn
    · rw [hpc] at hlaunched
      exact absurd rfl hlaunched

/-- Behind a stop a read returns nothing, or the end that it has taken before. -/
theorem results_behind {t : AvInputProxy} (hs : system.Reachable t) (hstop : t.stopping = true)
    (hquiet : ∀ n, t.todo (.user n) = []) (hrun : system.Run t events s) :
    (∀ k, s.consumer.input? = some k → (s.inputs k).cancelled = true) ∧
    (s.consumer.takesEnd = true → t.consumer.takesEnd = true) ∧
    ∀ source result d, .returned source result d ∈ events →
      result = .null ∨ (result = .eof ∧ t.consumer.takesEnd = true) := by
  induction hrun with
  | refl => exact ⟨fun k => captured_cancelled hs hstop hquiet, id, fun _ _ _ hmem => (by cases hmem)⟩
  | @snoc u s events later hrun hstep ih =>
    obtain ⟨act, hact⟩ := hstep
    obtain ⟨hcancelled, htakes, hresults⟩ := ih
    have hu : system.Reachable u := hs.run hrun
    have hstop' := stopping_run hs hstop hrun
    have hkept := (placed hu).kept (stepped hact)
    have hstays : ∀ k, u.consumer.input? = some k → (s.inputs k).cancelled = true := fun k hk =>
      hkept.cancelled k ((described hu).holds k hk).present (hcancelled k hk)
    -- a step of another thread
    have hbeside : s.consumer = u.consumer → (∀ source result d, .returned source result d ∉ later) →
        (∀ k, s.consumer.input? = some k → (s.inputs k).cancelled = true) ∧
        (s.consumer.takesEnd = true → t.consumer.takesEnd = true) ∧
        ∀ source result d, .returned source result d ∈ events ++ later →
          result = .null ∨ (result = .eof ∧ t.consumer.takesEnd = true) := by
      intro hsame hnone
      rw [hsame]
      exact ⟨hstays, htakes, fun source result d hmem =>
        hresults source result d ((List.mem_append.mp hmem).resolve_right (hnone source result d))⟩
    -- a step of the read
    have hreads : (∀ k, s.consumer.input? = some k → u.consumer.input? = some k) →
        (s.consumer.takesEnd = true → u.consumer.takesEnd = true) →
        (∀ source result d, .returned source result d ∈ later →
          result = .null ∨ (result = .eof ∧ u.consumer.takesEnd = true)) →
        (∀ k, s.consumer.input? = some k → (s.inputs k).cancelled = true) ∧
        (s.consumer.takesEnd = true → t.consumer.takesEnd = true) ∧
        ∀ source result d, .returned source result d ∈ events ++ later →
          result = .null ∨ (result = .eof ∧ t.consumer.takesEnd = true) := by
      intro hcaptured htook hlater
      refine ⟨fun k hk => hstays k (hcaptured k hk), htakes ∘ htook, fun source result d hmem => ?_⟩
      rcases List.mem_append.mp hmem with hold | hnew
      · exact hresults source result d hold
      · exact (hlater source result d hnew).imp id (And.imp_right htakes)
    cases stepped hact with
    | requested _ => exact hbeside rfl fun _ _ _ => by simp
    | called _ _ =>
      exact hreads (fun k hk => by cases hk) (fun hin => by cases hin) fun _ _ _ hmem => by cases hmem
    | performed hperformed => cases hperformed <;> exact hbeside rfl fun _ _ _ => by simp
    | worked _ hworked => cases hworked <;> exact hbeside rfl fun _ _ _ => by simp
    | fetched _ hfetched => cases hfetched <;> exact hbeside rfl fun _ _ _ => by simp
    | consumed hconsumed =>
      cases hconsumed with
      | woken _ _ _ =>
        exact hreads (fun k hk => by cases hk) (fun hin => by cases hin) fun _ _ _ hmem => by simp at hmem
      | null _ _ | tried _ _ =>
        refine hreads (fun k hk => by cases hk) (fun hin => by cases hin) fun _ _ _ hmem => .inl ?_
        exact (Event.returned.inj (List.mem_singleton.mp hmem)).2.1
      | eof _ hgoing _ | captured _ hgoing _ _ _ _ | acknowledged _ hgoing _ _ =>
        exact absurd (hgoing.symm.trans hstop') Bool.false_ne_true
      | again hconsumer _ =>
        exact hreads (fun k hk => by cases hk) (fun hin => by cases hin) fun _ _ _ hmem => by cases hmem
      | unreadable hconsumer _ | takes hconsumer _ | popped hconsumer _ | lost hconsumer _ =>
        exact hreads (fun k hk => by rw [hconsumer]; exact hk) (fun hin => by cases hin) fun _ _ _ hmem => by cases hmem
      | packet hconsumer huncancelled | ended hconsumer huncancelled _ =>
        have hcancelled' := hcancelled _ (by rw [hconsumer]; rfl)
        exact absurd (huncancelled.symm.trans hcancelled') Bool.false_ne_true
      | late hconsumer _ =>
        exact hreads (fun k hk => by rw [hconsumer]; exact hk) (fun _ => by rw [hconsumer]; rfl)
          fun _ _ _ hmem => by cases hmem
      | returned hconsumer =>
        refine hreads (fun k hk => by cases hk) (fun hin => by cases hin) fun _ _ _ hmem => .inr ?_
        rw [hconsumer]
        exact ⟨(Event.returned.inj (List.mem_singleton.mp hmem)).2.1, rfl⟩

/-! ### The law of a stop -/

theorem Stepped.records (h : Stepped s [.stopRecorded] s') : s'.stopping = true := by
  generalize hevents : [Event.stopRecorded] = events at h
  cases h with
  | requested _ | called _ _ => cases hevents
  | performed hperformed =>
    cases hperformed with
    | stopRecorded _ => rfl
    | _ => cases hevents
  | worked _ hworked => cases hworked <;> cases hevents
  | fetched _ hfetched => cases hfetched <;> cases hevents
  | consumed hconsumed => cases hconsumed <;> cases hevents

/-- A connection is made before it is opened. -/
theorem opening_made {s₀ : AvInputProxy} (hinit : system.init s₀) (hrun : system.Run s₀ history s)
    (hopening : .opening k ∈ history) : k < s.made := by
  obtain ⟨before, after, hsplit⟩ := List.append_of_mem hopening
  obtain ⟨t, u, hbefore, hstep, hopened, hafter⟩ := emitted hrun hsplit
  have ht := placed (.run (.init hinit) hbefore)
  have hlast := ht.made k (by rw [hstep.opens]; rfl)
  have hmade := (ht.kept hstep).made
  have hmore := (run_kept (.run (.init hinit) hopened) hafter).1
  omega

/-- **A stop of the proxy is never lost.**  Once it is recorded, the connection that is open or opens is cancelled
unless a caller of `RequestStop` is still to cancel it; no connection made later is opened; a read comes to its end,
with nothing but an end it has taken already once no call is under way; and the control worker comes to its last
status when the I/O of a cancelled connection answers. -/
theorem stop_is_kept {s₀ : AvInputProxy} (hinit : system.init s₀) (hrun : system.Run s₀ history s)
    (hstop : .stopRecorded ∈ history) :
    (∀ k, s.control.pc.input? = some k → s.control.pc.begins = true ∨ s.readers k ≠ .absent → s.todo .control = [] →
      (s.inputs k).cancelled = true ∨ ∃ n, .cancel k ∈ s.todo (.user n)) ∧
    (∀ before after k, history = before ++ .stopRecorded :: after → .created k ∈ after → .opening k ∉ history) ∧
    (∃ events s', (permitted reading).Run s events s' ∧ s'.consumer = .idle) ∧
    ((∀ n, s.todo (.user n) = []) → ∀ events s' source result d, system.Run s events s' →
      .returned source result d ∈ events → result = .null ∨ (result = .eof ∧ s.consumer.takesEnd = true)) ∧
    ∃ events s', (permitted interrupted).Run s events s' ∧ s'.control.pc = .done ∧ s'.todo .control = [] ∧
      s'.status.state.isTerminal = true := by
  have hs : system.Reachable s := .run (.init hinit) hrun
  have hstopping : s.stopping = true := by
    obtain ⟨before, after, hsplit⟩ := List.append_of_mem hstop
    obtain ⟨t, u, hbefore, hstep, hrecorded, hafter⟩ := emitted hrun hsplit
    exact stopping_run (.run (.init hinit) hrecorded) hstep.records hafter
  refine ⟨fun k hplace hk hempty => ?_, fun before after k hsplit hcreated hopening => ?_,
    read_released hs hstopping, fun hquiet events s' source result d hafter =>
      (results_behind hs hstopping hquiet hafter).2.2 source result d, worker_finishes hs hstopping⟩
  · have hearly : s.control.pc.early = false := by
      rcases hk with hbegins | hlive
      · cases hpc : s.control.pc <;> rw [hpc] at hbegins <;> first | rfl | cases hbegins
      · cases hearly : s.control.pc.early with
        | false => rfl
        | true => exact absurd (((placed hs).inputs k).unlaunched hplace (Pc.early_unlaunched hearly)) hlive
    rcases (severs hs).stops hstopping k hplace hearly hk with hsevered | huser | hre
    · exact .inl hsevered.1
    · exact .inr huser
    · exact absurd hre (not_reapplies hempty)
  · obtain ⟨t, u, hbefore, hstep, hrecorded, hafter⟩ := emitted hrun hsplit
    obtain ⟨-, hopens, hmakes⟩ := unopened_behind (.run (.init hinit) hrecorded) hstep.records hafter
    have hlate := hmakes k hcreated
    have hmade := ((placed (.run (.init hinit) hbefore)).kept hstep).made
    rw [hsplit] at hopening
    rcases List.mem_append.mp hopening with hold | hnew
    · have hlt := opening_made hinit hbefore hold
      omega
    · have hlt := hopens k ((List.mem_cons.mp hnew).resolve_left (by simp))
      omega

/-- A stop between the look at it and the place where the flag is taken back. -/
def stopsEarly : List Act :=
  [.work {}, .work {}, .perform .control, .perform .control, .work {}, .requestStop 0, .perform (.user 0),
    .perform (.user 0), .work {}, .work {}, .perform .control, .perform .control, .perform .control, .perform .control]

theorem stop_is_kept_opening : ∃ history s, system.Run (start true (-1) 1) history s ∧
    .opening 0 ∈ history ∧ s.control.pc = .opening 0 ∧ s.todo .control = [] ∧
      ((s.inputs 0).cancelled = true ∨ ∃ n, .cancel 0 ∈ s.todo (.user n)) := by
  have hrun := Transition.execute_run (T := system) (fun _ act _ _ h => ⟨act, h⟩)
    (rfl : Transition.execute next (start true (-1) 1) stopsEarly = some (_, _))
  exact ⟨_, _, hrun, by decide, rfl, rfl, (stop_is_kept ⟨_, _, _, rfl⟩ hrun (by decide)).1 0 rfl (.inl rfl) rfl⟩

end AvInputProxy

end MwStreamer
