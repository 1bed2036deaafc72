import MwStreamer.Input.ProxyReads

/-!
# A stop of the input proxy

`Open` takes back a cancellation that came before it, so a stop is carried to the connection once more when the proxy is
told that it opens.  `Severs` says who carries a stop that has been recorded: the connection is cancelled already, or
a caller of `RequestStop` or the control worker is bound to cancel it.
-/

namespace MwStreamer

namespace AvInputProxy

variable {s s' : AvInputProxy} {events history : List Event} {thread : Thread} {k : ℕ}

/-! ### Who carries a stop -/

/-- The queue of the connection is closed, or a thread is bound to close it. -/
def Sealed (s : AvInputProxy) (k : ℕ) : Prop :=
  (s.inputs k).queue.closed = true ∨ ∃ t, .closeQueue k ∈ s.todo t

/-- The connection is cancelled, and its queue is or will be closed. -/
def Severed (s : AvInputProxy) (k : ℕ) : Prop := (s.inputs k).cancelled = true ∧ Sealed s k

/-- A section by which the proxy is told that the connection opens, or which that leads to. -/
def Task.reapplies (k : ℕ) (task : Task) : Prop :=
  task = .cancel k ∨ ∃ status : AvInputStatus, status.state = .opening ∧
    (task = .publishInput k status ∨ task = .inputChanged k status)

/-- The control worker has the flag of the connection behind it, but not the look at the stop that follows. -/
def Reapplies (s : AvInputProxy) (k : ℕ) : Prop :=
  s.control.pc = .opening k ∧ ∃ task ∈ s.todo .control, task.reapplies k

/-- The stop has come to the connection, or someone carries it there. -/
def Interrupted (s : AvInputProxy) (k : ℕ) : Prop :=
  Severed s k ∨ (∃ n, .cancel k ∈ s.todo (.user n)) ∨ Reapplies s k

structure Severs (s : AvInputProxy) : Prop where
  packets : ∀ k, s.control.pc.input? = some k → s.control.pc.leaves = false → s.readers k ≠ .absent →
    (s.inputs k).packets = true
  stops : s.stopping = true → ∀ k, s.control.pc.input? = some k → s.control.pc.early = false →
    s.control.pc.begins = true ∨ s.readers k ≠ .absent → Interrupted s k
  joins : ∀ k, s.control.pc.input? = some k → s.control.pc.isJoining = true → s.readers k ≠ .absent →
    Severed s k ∨ .cancel k ∈ s.todo .control
  gone : ∀ k, k < s.made → (s.control.pc.input? = some k → s.control.pc.leaves = true) → s.readers k ≠ .absent →
    Sealed s k

/-- The flags of a connection stay as they are. -/
structure SameFlags (s s' : AvInputProxy) (k : ℕ) : Prop where
  cancelled : (s'.inputs k).cancelled = (s.inputs k).cancelled
  closed : (s'.inputs k).queue.closed = (s.inputs k).queue.closed
  packets : s.control.pc.leaves = false → (s'.inputs k).packets = (s.inputs k).packets

theorem SameFlags.of_eq (h : s'.inputs k = s.inputs k) : SameFlags s s' k where
  cancelled := by rw [h]
  closed := by rw [h]
  packets _ := by rw [h]

theorem SameFlags.setInput {j : ℕ} {input : AvInput} (hinputs : s'.inputs = Function.update s.inputs j input)
    (hcancelled : input.cancelled = (s.inputs j).cancelled) (hclosed : input.queue.closed = (s.inputs j).queue.closed)
    (hpackets : s.control.pc.leaves = false → input.packets = (s.inputs j).packets) (k : ℕ) : SameFlags s s' k := by
  by_cases hkj : k = j
  · subst hkj
    have hself : s'.inputs k = input := by rw [hinputs, Function.update_self]
    exact ⟨by rw [hself, hcancelled], by rw [hself, hclosed], fun hleaves => by rw [hself, hpackets hleaves]⟩
  · exact .of_eq (by rw [hinputs, Function.update_of_ne hkj])

theorem Sealed.mono (h : Sealed s k) (hclosed : (s.inputs k).queue.closed = true → (s'.inputs k).queue.closed = true)
    (hgrows : ∀ t x, x ∈ s.todo t → x ∈ s'.todo t) : Sealed s' k :=
  h.imp hclosed fun ⟨t, ht⟩ => ⟨t, hgrows t _ ht⟩

/-- A thread that is bound to nothing gets sections to take. -/
theorem grows_of_empty {tasks : List Task} (hempty : s.todo thread = [])
    (htodo : s'.todo = Function.update s.todo thread tasks) (t : Thread) (x : Task) (hx : x ∈ s.todo t) :
    x ∈ s'.todo t := by
  rw [htodo]
  by_cases ht : t = thread
  · subst ht
    rw [hempty] at hx
    cases hx
  · rw [Function.update_of_ne ht]
    exact hx

theorem not_reapplies (hempty : s.todo .control = []) : ¬Reapplies s k := by
  rintro ⟨-, task, hmem, -⟩
  rw [hempty] at hmem
  cases hmem

/-- A step that starts no reader and takes no section; the control worker may go on at its connection. -/
theorem Severs.frame (h : Severs s) (hplaced : Placed s) (hin : s'.control.pc.input? = s.control.pc.input?)
    (hleaves : s'.control.pc.leaves = s.control.pc.leaves)
    (hstops : s'.control.pc.early = false →
      (s.control.pc.early = false ∧ (s'.control.pc.begins = true → s.control.pc.begins = true)) ∨
      (s.control.pc.early = true ∧ s'.control.pc.begins = false) ∨
      ∀ k, s'.control.pc.input? = some k → Reapplies s' k)
    (hjoins : s'.control.pc.isJoining = true → s.control.pc.isJoining = true ∨
      ∀ k, s'.control.pc.input? = some k → .cancel k ∈ s'.todo .control)
    (hstopping : s'.stopping = s.stopping) (hmade : s'.made = s.made)
    (hreaders : ∀ k, s.readers k = .absent → s'.readers k = .absent)
    (hflags : ∀ k, s.readers k ≠ .absent ∨ s.control.pc.early = false → SameFlags s s' k)
    (hgrows : ∀ t x, x ∈ s.todo t → x ∈ s'.todo t) (hreapplies : ∀ k, Reapplies s k → Reapplies s' k) : Severs s' := by
  have hpresent : ∀ k, s'.readers k ≠ .absent → s.readers k ≠ .absent := fun k => mt (hreaders k)
  have hsealed : ∀ k, s.readers k ≠ .absent ∨ s.control.pc.early = false → Sealed s k → Sealed s' k :=
    fun k hk hsealed => hsealed.mono (fun hclosed => (hflags k hk).closed.trans hclosed) hgrows
  have hsevered : ∀ k, s.readers k ≠ .absent ∨ s.control.pc.early = false → Severed s k → Severed s' k :=
    fun k hk hsevered => ⟨(hflags k hk).cancelled.trans hsevered.1, hsealed k hk hsevered.2⟩
  constructor
  · intro k hplace hnot hlive
    rw [hin] at hplace
    rw [hleaves] at hnot
    rw [(hflags k (.inl (hpresent k hlive))).packets hnot]
    exact h.packets k hplace hnot (hpresent k hlive)
  · intro hstop k hplace hearly hk
    rw [hstopping] at hstop
    rw [hin] at hplace
    rcases hstops hearly with ⟨hearly', hbegins⟩ | ⟨hearly', hbegins⟩ | hnew
    · rcases h.stops hstop k hplace hearly' (hk.imp hbegins (hpresent k)) with hsev | ⟨n, hn⟩ | hre
      · exact .inl (hsevered k (.inr hearly') hsev)
      · exact .inr (.inl ⟨n, hgrows _ _ hn⟩)
      · exact .inr (.inr (hreapplies k hre))
    · have habsent := (hplaced.inputs k).unlaunched hplace (Pc.early_unlaunched hearly')
      rcases hk with hk | hk
      · exact absurd (hbegins.symm.trans hk) Bool.false_ne_true
      · exact absurd habsent (hpresent k hk)
    · exact .inr (.inr (hnew k (hin.trans hplace)))
  · intro k hplace hjoining hlive
    rcases hjoins hjoining with hwas | hnew
    · rw [hin] at hplace
      exact (h.joins k hplace hwas (hpresent k hlive)).imp (hsevered k (.inl (hpresent k hlive))) (hgrows _ _)
    · exact .inr (hnew k hplace)
  · intro k hlt hk hlive
    rw [hmade] at hlt
    rw [hin, hleaves] at hk
    exact hsealed k (.inl (hpresent k hlive)) (h.gone k hlt hk (hpresent k hlive))

/-! ### Sections -/

/-- A thread takes a section.  What it was bound to do by the section is done or on the list again. -/
theorem Severs.performs (h : Severs s) (hplaced : Placed s) {task : Task} {rest tasks : List Task}
    (htodo : s.todo thread = task :: rest) (hcontrol : s'.control = s.control) (hmade : s'.made = s.made)
    (hreaders : s'.readers = s.readers) (htodo' : s'.todo = Function.update s.todo thread (tasks ++ rest))
    (hpackets : ∀ k, (s'.inputs k).packets = (s.inputs k).packets)
    (hcancelled : ∀ k, (s.inputs k).cancelled = true → (s'.inputs k).cancelled = true)
    (hclosed : ∀ k, (s.inputs k).queue.closed = true → (s'.inputs k).queue.closed = true)
    (hcloses : ∀ k, task = .closeQueue k → (s'.inputs k).queue.closed = true)
    (hcancels : ∀ k, task = .cancel k → (s'.inputs k).cancelled = true ∧
      ((s.inputs k).packets = true → .closeQueue k ∈ tasks))
    (hreapplies : ∀ k, thread = .control → s.control.pc = .opening k → s'.stopping = true → task.reapplies k →
      task = .cancel k ∨ ∃ task' ∈ tasks, task'.reapplies k)
    (hstopping : ∀ k, s.input = some k → s'.stopping = true → s.stopping = true ∨
      ∃ n, thread = .user n ∧ .cancel k ∈ tasks) : Severs s' := by
  have hbehind : ∀ t x, x ∈ s.todo t → x ∈ s'.todo t ∨ (t = thread ∧ x = task) := by
    intro t x hx
    rw [htodo']
    by_cases ht : t = thread
    · subst ht
      rw [htodo] at hx
      rw [Function.update_self]
      rcases List.mem_cons.mp hx with heq | hrest
      · exact .inr ⟨rfl, heq⟩
      · exact .inl (List.mem_append_right _ hrest)
    · rw [Function.update_of_ne ht]
      exact .inl hx
  have hnew : ∀ x ∈ tasks, x ∈ s'.todo thread := fun x hx => by
    rw [htodo', Function.update_self]
    exact List.mem_append_left _ hx
  have hsealed : ∀ k, Sealed s k → Sealed s' k := by
    rintro k (hwas | ⟨t, ht⟩)
    · exact .inl (hclosed k hwas)
    · rcases hbehind t _ ht with hstill | ⟨-, heq⟩
      · exact .inr ⟨t, hstill⟩
      · exact .inl (hcloses k heq.symm)
  have hsevered : ∀ k, Severed s k → Severed s' k := fun k hk => ⟨hcancelled k hk.1, hsealed k hk.2⟩
  -- the section of `RequestCancel` severs the connection
  have hcancel : ∀ k t, (s.inputs k).packets = true ∨ Sealed s k → .cancel k ∈ s.todo t →
      Severed s' k ∨ .cancel k ∈ s'.todo t := by
    intro k t hk ht
    rcases hbehind t _ ht with hstill | ⟨-, heq⟩
    · exact .inr hstill
    · obtain ⟨hflag, hqueue⟩ := hcancels k heq.symm
      refine .inl ⟨hflag, ?_⟩
      rcases hk with hpresent | hk
      · exact .inr ⟨thread, hnew _ (hqueue hpresent)⟩
      · exact hsealed k hk
  have hsealable : ∀ k, s.control.pc.input? = some k → s.control.pc.early = false →
      s.control.pc.begins = true ∨ s.readers k ≠ .absent → (s.inputs k).packets = true ∨ Sealed s k := by
    intro k hplace hearly hk
    rcases hk with hbegins | hlive
    · exact .inl ((hplaced.inputs k).begins hplace hbegins)
    · cases hleaves : s.control.pc.leaves with
      | false => exact .inl (h.packets k hplace hleaves hlive)
      | true =>
        have hlast := hplaced.made k hplace
        exact .inr (h.gone k (by omega) (fun _ => hleaves) hlive)
  constructor
  · rw [hcontrol, hreaders]
    intro k hplace hleaves hlive
    rw [hpackets]
    exact h.packets k hplace hleaves hlive
  · rw [hcontrol, hreaders]
    intro hstop k hplace hearly hk
    have hable := hsealable k hplace hearly hk
    rcases hstopping k (hplaced.input.trans hplace) hstop with hwas | ⟨n, rfl, hn⟩
    · rcases h.stops hwas k hplace hearly hk with hsev | ⟨n, hn⟩ | ⟨hpc, task', hmem, hre⟩
      · exact .inl (hsevered k hsev)
      · exact (hcancel k _ hable hn).imp id fun hstill => .inl ⟨n, hstill⟩
      · rcases hbehind _ _ hmem with hstill | ⟨ht, rfl⟩
        · exact .inr (.inr ⟨hcontrol ▸ hpc, task', hstill, hre⟩)
        · rcases hreapplies k ht.symm hpc hstop hre with heq | ⟨task'', hmem'', hre''⟩
          · rw [heq] at hmem
            refine (hcancel k .control hable hmem).imp id fun hstill => .inr ?_
            exact ⟨hcontrol ▸ hpc, _, hstill, .inl rfl⟩
          · exact .inr (.inr ⟨hcontrol ▸ hpc, task'', ht ▸ hnew _ hmem'', hre''⟩)
    · exact .inr (.inl ⟨n, hnew _ hn⟩)
  · rw [hcontrol, hreaders]
    intro k hplace hjoining hlive
    have hleaves : s.control.pc.leaves = false := by
      cases hpc : s.control.pc <;> rw [hpc] at hjoining <;> first | rfl | cases hjoining
    rcases h.joins k hplace hjoining hlive with hsev | hmem
    · exact .inl (hsevered k hsev)
    · exact hcancel k .control (.inl (h.packets k hplace hleaves hlive)) hmem
  · rw [hcontrol, hreaders, hmade]
    exact fun k hlt hk hlive => hsealed k (h.gone k hlt hk hlive)

theorem Severs.performed (h : Severs s) (hplaced : Placed s) (hstep : Performed s thread events s') : Severs s' := by
  have hhead : ∀ {task : Task} {rest : List Task}, s.todo thread = task :: rest → TaskOk s thread task :=
    fun htodo => hplaced.head htodo
  cases hstep with
  | @stopRecorded rest htodo =>
    have huser : ∃ n, thread = .user n := by
      have hok := hhead htodo
      cases thread with
      | user n => exact ⟨n, rfl⟩
      | control => exact hok.elim
      | reader j => exact hok.elim
    obtain ⟨n, rfl⟩ := huser
    refine h.performs hplaced htodo rfl rfl rfl rfl (fun _ => rfl) (fun _ => id) (fun _ => id)
      (fun k heq => by cases heq) (fun k heq => by cases heq) (fun k hthread => by cases hthread) fun k hk _ => ?_
    exact .inr ⟨n, rfl, List.mem_map_of_mem (by rw [hk]; exact List.mem_singleton_self k)⟩
  | @cancelled j rest htodo =>
    refine h.performs hplaced htodo rfl rfl rfl rfl (setInput_same AvInput.packets rfl)
      (setInput_keeps (P := fun i => i.cancelled = true) fun _ => rfl)
      (setInput_keeps (P := fun i => i.queue.closed = true) id)
      (fun k heq => by cases heq) (fun k heq => ?_) (fun k _ _ _ hre => .inl ?_) fun _ _ hstop => .inl hstop
    · obtain rfl := Task.cancel.inj heq
      refine ⟨by rw [show ((s.setInput j _).bind thread _).inputs j = _ from setInput_self]; rfl, fun hpresent => ?_⟩
      rw [if_pos hpresent]
      exact List.mem_singleton_self _
    · rcases hre with heq | ⟨status, -, heq | heq⟩
      · exact heq
      · cases heq
      · cases heq
  | @queueClosed j rest htodo =>
    show Severs ((s.setInput j (s.inputs j).closeQueue).bind thread ([] ++ rest))
    refine h.performs hplaced htodo rfl rfl rfl rfl (setInput_same AvInput.packets rfl)
      (setInput_keeps (P := fun i => i.cancelled = true) id)
      (setInput_keeps (P := fun i => i.queue.closed = true) fun _ => rfl) (fun k heq => ?_) (fun k heq => by cases heq)
      (fun k _ _ _ hre => ?_) fun _ _ hstop => .inl hstop
    · obtain rfl := Task.closeQueue.inj heq
      rw [show ((s.setInput j _).bind thread _).inputs j = _ from setInput_self]
      rfl
    · rcases hre with heq | ⟨status, -, heq | heq⟩ <;> cases heq
  | @inputPublished j status rest htodo =>
    rw [List.append_cons]
    refine h.performs hplaced htodo rfl rfl rfl rfl (setInput_same AvInput.packets rfl)
      (setInput_keeps (P := fun i => i.cancelled = true) id)
      (setInput_keeps (P := fun i => i.queue.closed = true) id) (fun k heq => by cases heq) (fun k heq => by cases heq)
      (fun k _ _ _ hre => .inr ?_) fun _ _ hstop => .inl hstop
    rcases hre with heq | ⟨status', hstate, heq | heq⟩
    · cases heq
    · obtain ⟨rfl, rfl⟩ := Task.publishInput.inj heq
      exact ⟨_, List.mem_append_right _ (List.mem_singleton_self _), .inr ⟨status, hstate, .inr rfl⟩⟩
    · cases heq
  | @foreign j status rest htodo hother =>
    show Severs (s.bind thread ([] ++ rest))
    refine h.performs hplaced htodo rfl rfl rfl rfl (fun _ => rfl) (fun _ => id) (fun _ => id)
      (fun k heq => by cases heq) (fun k heq => by cases heq) (fun k _ hpc _ hre => ?_) fun _ _ hstop => .inl hstop
    rcases hre with heq | ⟨status', -, heq | heq⟩
    · cases heq
    · cases heq
    · -- the connection the control worker is at is the proxy's
      obtain ⟨rfl, -⟩ := Task.inputChanged.inj heq
      exact absurd (hplaced.input.trans (by rw [hpc]; rfl)) hother
  | @inputChanged j status rest htodo hinput =>
    refine h.performs hplaced htodo rfl rfl rfl rfl (fun _ => rfl) (fun _ => id) (fun _ => id)
      (fun k heq => by cases heq) (fun k heq => by cases heq) (fun k _ _ hstop hre => .inr ?_)
      fun _ _ hstop => .inl hstop
    rcases hre with heq | ⟨status', hstate, heq | heq⟩
    · cases heq
    · cases heq
    · obtain ⟨rfl, rfl⟩ := Task.inputChanged.inj heq
      refine ⟨.cancel j, ?_, .inl rfl⟩
      rw [show s.stopping = true from hstop, hstate]
      exact List.mem_singleton_self _
  | @published state retries delay error rest htodo =>
    show Severs ({ s with
      status := { s.status with
        state := state, retryCount := retries, retryDelay := delay, error := error } }.bind thread ([] ++ rest))
    refine h.performs hplaced htodo rfl rfl rfl rfl (fun _ => rfl) (fun _ => id) (fun _ => id)
      (fun k heq => by cases heq) (fun k heq => by cases heq) (fun k _ _ _ hre => ?_) fun _ _ hstop => .inl hstop
    rcases hre with heq | ⟨status, -, heq | heq⟩ <;> cases heq
  | @announced rest htodo =>
    show Severs ({ s with readStateChanged := true }.bind thread ([] ++ rest))
    refine h.performs hplaced htodo rfl rfl rfl rfl (fun _ => rfl) (fun _ => id) (fun _ => id)
      (fun k heq => by cases heq) (fun k heq => by cases heq) (fun k _ _ _ hre => ?_) fun _ _ hstop => .inl hstop
    rcases hre with heq | ⟨status, -, heq | heq⟩ <;> cases heq

/-! ### The control worker -/

/-- The control worker is at no connection, or leaves the one it was at. -/
theorem Severs.away (h : Severs s) (hin : s'.control.pc.input? = none)
    (hleaves : ∀ k, s.control.pc.input? = some k → s.control.pc.leaves = true) (hmade : s'.made = s.made)
    (hreaders : s'.readers = s.readers) (hinputs : s'.inputs = s.inputs)
    (hgrows : ∀ t x, x ∈ s.todo t → x ∈ s'.todo t) : Severs s' where
  packets k hplace := absurd (hin.symm.trans hplace) (by simp)
  stops _ k hplace := absurd (hin.symm.trans hplace) (by simp)
  joins k hplace := absurd (hin.symm.trans hplace) (by simp)
  gone k hlt _ hlive := by
    rw [hmade] at hlt
    rw [hreaders] at hlive
    exact (h.gone k hlt (hleaves k) hlive).mono (by rw [hinputs]; exact id) hgrows

/-- The control worker leaves a connection whose reader has ended or was never started. -/
theorem Severs.leave (h : Severs s) (hplace : s.control.pc.input? = some k) (hin : s'.control.pc.input? = some k)
    (hleaves : s'.control.pc.leaves = true) (hearly : s.control.pc.early = false)
    (hsealed : s.readers k ≠ .absent → Sealed s k)
    (hstopping : s'.stopping = s.stopping) (hmade : s'.made = s.made) (hreaders : s'.readers = s.readers)
    (hinputs : s'.inputs = s.inputs) (htodo : s'.todo = s.todo) (hempty : s.todo .control = []) : Severs s' := by
  have hkeeps : ∀ j, Sealed s j → Sealed s' j := fun j hj =>
    hj.mono (by rw [hinputs]; exact id) fun t x hx => htodo ▸ hx
  obtain ⟨-, -, hbegins, -, hjoining⟩ := Pc.leaves_only hleaves
  constructor
  · intro j _ hnot
    exact absurd (hnot.symm.trans hleaves) Bool.false_ne_true
  · intro hstop j hj _ hk
    obtain rfl : k = j := Option.some.inj (hin.symm.trans hj)
    have hlive : s.readers k ≠ .absent := by
      rw [hbegins, hreaders] at hk
      exact hk.resolve_left Bool.false_ne_true
    rcases h.stops (hstopping ▸ hstop) k hplace hearly (.inr hlive) with hsev | ⟨n, hn⟩ | hre
    · exact .inl ⟨by rw [hinputs]; exact hsev.1, hkeeps k hsev.2⟩
    · exact .inr (.inl ⟨n, htodo ▸ hn⟩)
    · exact absurd hre (not_reapplies hempty)
  · intro j _ hin'
    exact absurd (hjoining.symm.trans hin') Bool.false_ne_true
  · intro j hlt hj hlive
    rw [hmade] at hlt
    rw [hreaders] at hlive
    refine hkeeps j ?_
    by_cases hjk : j = k
    · subst hjk
      exact hsealed hlive
    · exact h.gone j hlt (fun hcontra => absurd (Option.some.inj (hcontra.symm.trans hplace)) hjk) hlive

theorem Severs.created (h : Severs s) (hplaced : Placed s) (hpc : s.control.pc = .creating)
    (hempty : s.todo .control = []) :
    Severs (({ s with
      made := s.made + 1, input := some s.made, terminal := none
      status := { s.status with info := none } }.goto (.rechecking s.made)).announces .connecting s.control.retries
        0 none) := by
  obtain ⟨-, habsent, -⟩ := hplaced.fresh s.made le_rfl
  constructor
  · intro k hplace _ hlive
    obtain rfl : s.made = k := Option.some.inj hplace
    exact absurd habsent hlive
  · intro _ k _ hearly
    exact absurd hearly (by simp [Pc.early, announces, goto, bind])
  · intro k _ hjoining
    exact absurd hjoining (by simp [Pc.isJoining, announces, goto, bind])
  · intro k hlt hk hlive
    have hkm : k ≠ s.made := fun heq => absurd (heq ▸ habsent) hlive
    have hlt' : k < s.made := by
      have hlt' : k < s.made + 1 := hlt
      omega
    refine (h.gone k hlt' (fun hplace => ?_) hlive).mono id (grows_of_empty hempty rfl)
    rw [hpc] at hplace
    cases hplace

theorem Severs.launched (h : Severs s) (hplaced : Placed s) (hpc : s.control.pc = .launching k)
    (hempty : s.todo .control = []) : Severs ((s.setReader k .checking).goto (.settling k)) := by
  have hplace : s.control.pc.input? = some k := by
    rw [hpc]
    rfl
  have hbegins : s.control.pc.begins = true := by
    rw [hpc]
    rfl
  constructor
  · intro j hj _ _
    obtain rfl : k = j := Option.some.inj hj
    exact (hplaced.inputs k).begins hplace hbegins
  · intro hstop j hj _ _
    obtain rfl : k = j := Option.some.inj hj
    rcases h.stops hstop k hplace (by rw [hpc]; rfl) (.inl hbegins) with hsev | huser | hre
    · exact .inl hsev
    · exact .inr (.inl huser)
    · exact absurd hre (not_reapplies hempty)
  · intro j _ hjoining
    exact absurd hjoining (by simp [Pc.isJoining, goto, setReader])
  · intro j hlt hj hlive
    have hjk : j ≠ k := fun heq => absurd (hj (by rw [heq]; rfl)) (by simp [Pc.leaves, goto])
    rw [show ((s.setReader k .checking).goto (.settling k)).readers j = s.readers j from setReader_of_ne hjk] at hlive
    exact h.gone j hlt (fun hcontra => absurd (Option.some.inj (hcontra.symm.trans hplace)) hjk) hlive

theorem Severs.worked (h : Severs s) (hplaced : Placed s) (hempty : s.todo .control = []) (hstep : Worked s events s') :
    Severs s' := by
  have hnot : ∀ k, Reapplies s k → Reapplies s' k := fun k hre => absurd hre (not_reapplies hempty)
  have hflags : ∀ {t : AvInputProxy}, t.inputs = s.inputs → ∀ k, s.readers k ≠ .absent ∨ s.control.pc.early = false →
      SameFlags s t k := fun heq k _ => .of_eq (by rw [heq])
  cases hstep with
  | breaks hpc hstopping =>
    have hnone : s.control.pc.input? = none := by
      rcases hpc with hpc | hpc | ⟨terminal, hpc⟩ <;> rw [hpc] <;> rfl
    exact h.away rfl (fun k hk => absurd (hnone.symm.trans hk) (by simp)) rfl rfl rfl (grows_of_empty hempty rfl)
  | loops hpc _ | reopens hpc _ _ _ | delayed hpc _ =>
    exact h.away rfl (fun k hk => by rw [hpc] at hk; cases hk) rfl rfl rfl fun _ _ => id
  | exhausts hpc _ _ _ | givesUp hpc _ _ | retries hpc _ _ | cancelled hpc _ _ _ =>
    exact h.away rfl (fun k hk => by rw [hpc] at hk; cases hk) rfl rfl rfl (grows_of_empty hempty rfl)
  | created hpc => exact h.created hplaced hpc hempty
  | unopened hpc _ =>
    exact h.frame hplaced (by rw [hpc]; rfl) (by rw [hpc]; rfl) (fun _ => .inr (.inl ⟨by rw [hpc]; rfl, rfl⟩))
      (fun hin => by cases hin) rfl rfl (fun _ => id) (hflags rfl) (fun _ _ => id) hnot
  | rechecked hpc _ =>
    exact h.frame hplaced (by rw [hpc]; rfl) (by rw [hpc]; rfl) (fun hin => by cases hin)
      (fun hin => by cases hin) rfl rfl (fun _ => id) (hflags rfl) (fun _ _ => id) hnot
  | @uncancelled j hpc =>
    have habsent : s.readers j = .absent := (hplaced.inputs j).unlaunched (by rw [hpc]; rfl) (by rw [hpc]; rfl)
    refine h.frame hplaced (by rw [hpc]; rfl) (by rw [hpc]; rfl) (fun hin => by cases hin)
      (fun hin => by cases hin) rfl rfl (fun _ => id) (fun k hk => ?_) (fun _ _ => id) hnot
    have hkj : k ≠ j := fun heq => by
      rcases hk with hk | hk
      · exact hk (heq ▸ habsent)
      · rw [hpc] at hk
        cases hk
    exact .of_eq (setInput_of_ne hkj)
  | @queued j hpc =>
    have habsent : s.readers j = .absent := (hplaced.inputs j).unlaunched (by rw [hpc]; rfl) (by rw [hpc]; rfl)
    refine h.frame hplaced (by rw [hpc]; rfl) (by rw [hpc]; rfl) (fun _ => .inr (.inr fun k hk => ?_))
      (fun hin => by cases hin) rfl rfl (fun _ => id) (fun k hk => ?_) (grows_of_empty hempty rfl) hnot
    · obtain rfl : j = k := Option.some.inj hk
      refine ⟨rfl, .publishInput j { state := .opening }, ?_, .inr ⟨_, rfl, .inl rfl⟩⟩
      rw [bind_todo_self]
      exact List.mem_singleton_self _
    · have hkj : k ≠ j := fun heq => by
        rcases hk with hk | hk
        · exact hk (heq ▸ habsent)
        · rw [hpc] at hk
          cases hk
      exact .of_eq (setInput_of_ne hkj)
  | gaveUp hpc e =>
    rcases hpc with hpc | hpc | hpc <;>
      exact h.frame hplaced (by rw [hpc]; rfl) (by rw [hpc]; rfl)
        (fun _ => .inl ⟨by rw [hpc]; rfl, fun hin => by cases hin⟩)
        (fun hin => by cases hin) rfl rfl (fun _ => id) (hflags rfl) (fun _ _ => id) hnot
  | connected hpc _ | probed hpc _ _ =>
    exact h.frame hplaced (by rw [hpc]; rfl) (by rw [hpc]; rfl)
      (fun _ => .inl ⟨by rw [hpc]; rfl, fun _ => by rw [hpc]; rfl⟩)
      (fun hin => by cases hin) rfl rfl (fun _ => id) (hflags rfl) (fun _ _ => id) hnot
  | @described j info hpc =>
    exact h.frame hplaced (by rw [hpc]; rfl) (by rw [hpc]; rfl)
      (fun _ => .inl ⟨by rw [hpc]; rfl, fun _ => by rw [hpc]; rfl⟩)
      (fun hin => by cases hin) rfl rfl (fun _ => id) (fun k _ => .setInput rfl (by rfl) (by rfl) (fun _ => by rfl) k)
      (grows_of_empty hempty rfl) hnot
  | launched hpc => exact h.launched hplaced hpc hempty
  | failed hpc =>
    exact h.frame hplaced (by rw [hpc]; rfl) (by rw [hpc]; rfl)
      (fun _ => .inl ⟨by rw [hpc]; rfl, fun hin => by cases hin⟩)
      (fun hin => by cases hin) rfl rfl (fun _ => id) (hflags rfl) (grows_of_empty hempty rfl) hnot
  | announced hpc _ =>
    exact h.frame hplaced (by rw [hpc]; rfl) (by rw [hpc]; rfl)
      (fun _ => .inl ⟨by rw [hpc]; rfl, fun hin => by cases hin⟩)
      (fun hin => by cases hin) rfl rfl (fun _ => id) (hflags rfl) (grows_of_empty hempty rfl) hnot
  | settled hpc | unannounced hpc _ | offered hpc | stopSeen hpc _ | ended hpc _ _ | retired hpc =>
    exact h.frame hplaced (by rw [hpc]; rfl) (by rw [hpc]; rfl)
      (fun _ => .inl ⟨by rw [hpc]; rfl, fun hin => by cases hin⟩)
      (fun hin => by cases hin) rfl rfl (fun _ => id) (hflags rfl) (fun _ _ => id) hnot
  | @unclosed j terminal hpc hclosed =>
    have hplace : s.control.pc.input? = some j := by
      rw [hpc]
      rfl
    refine h.leave hplace rfl rfl (by rw [hpc]; rfl) (fun hlive => ?_) rfl rfl rfl rfl rfl hempty
    exact absurd hclosed ((hplaced.inputs j).unclosed hplace (by rw [hpc]; rfl) hlive)
  | @closes j terminal hpc _ =>
    refine h.frame hplaced (by rw [hpc]; rfl) (by rw [hpc]; rfl)
      (fun _ => .inl ⟨by rw [hpc]; rfl, fun hin => by cases hin⟩)
      (fun _ => .inr fun k hk => ?_) rfl rfl (fun _ => id) (hflags rfl) (grows_of_empty hempty rfl) hnot
    obtain rfl : j = k := Option.some.inj hk
    rw [bind_todo_self]
    exact List.mem_singleton_self _
  | @joined j terminal hpc _ _ =>
    have hplace : s.control.pc.input? = some j := by
      rw [hpc]
      rfl
    refine h.leave hplace rfl rfl (by rw [hpc]; rfl) (fun hlive => ?_) rfl rfl rfl rfl rfl hempty
    rcases h.joins j hplace (by rw [hpc]; rfl) hlive with hsev | hmem
    · exact hsev.2
    · rw [hempty] at hmem
      cases hmem
  | @detached j terminal hpc =>
    refine h.frame hplaced (by rw [hpc]; rfl) (by rw [hpc]; rfl)
      (fun _ => .inl ⟨by rw [hpc]; rfl, fun hin => by cases hin⟩)
      (fun hin => by cases hin) rfl rfl (fun _ => id) (fun k _ => .setInput rfl (by rfl) (by rfl) (fun hin => ?_) k)
      (fun _ _ => id) hnot
    rw [hpc] at hin
    cases hin
  | discarded hpc _ =>
    exact h.frame hplaced rfl rfl (fun hearly => .inl ⟨hearly, id⟩) (fun hin => .inl hin) rfl rfl (fun _ => id)
      (fun k _ => .setInput rfl (by rfl) (by rfl) (fun _ => by rfl) k) (fun _ _ => id) hnot
  | emptied hpc _ =>
    exact h.frame hplaced (by rw [hpc]; rfl) (by rw [hpc]; rfl)
      (fun _ => .inl ⟨by rw [hpc]; rfl, fun hin => by cases hin⟩)
      (fun hin => by cases hin) rfl rfl (fun _ => id) (hflags rfl) (grows_of_empty hempty rfl) hnot
  | released hpc =>
    exact h.away rfl (fun k _ => by rw [hpc]; rfl) rfl rfl rfl fun _ _ => id

/-! ### Every step -/

/-- A step of a reader, of the consumer or of a caller. -/
theorem Severs.beside (h : Severs s) (hplaced : Placed s) (hcontrol : s'.control = s.control)
    (hstopping : s'.stopping = s.stopping) (hmade : s'.made = s.made)
    (hreaders : ∀ k, s.readers k = .absent → s'.readers k = .absent) (hflags : ∀ k, SameFlags s s' k)
    (hgrows : ∀ t x, x ∈ s.todo t → x ∈ s'.todo t) : Severs s' :=
  h.frame hplaced (by rw [hcontrol]) (by rw [hcontrol]) (by rw [hcontrol]; exact fun hearly => .inl ⟨hearly, id⟩)
    (by rw [hcontrol]; exact .inl) hstopping hmade hreaders (fun k _ => hflags k) hgrows
    fun k ⟨hpc, task, hmem, hre⟩ => ⟨hcontrol ▸ hpc, task, hgrows _ _ hmem, hre⟩

theorem Severs.fetched (h : Severs s) (hplaced : Placed s) (hquiet : s.todo (.reader k) = [])
    (hstep : Fetched s k events s') : Severs s' := by
  have hreads : ∀ {reader reader' : Reader}, s.readers k = reader → reader ≠ .absent → ∀ j, s.readers j = .absent →
      (s.setReader k reader').readers j = .absent := by
    intro reader reader' hwas hpresent j hj
    by_cases hjk : j = k
    · subst hjk
      exact absurd (hwas.symm.trans hj) hpresent
    · rw [setReader_of_ne hjk]
      exact hj
  cases hstep with
  | cancelled hreader _ =>
    rcases hreader with hreader | hreader | hreader <;>
      exact h.beside hplaced rfl rfl rfl (hreads hreader (by simp)) (fun _ => .of_eq rfl) (grows_of_empty hquiet rfl)
  | drained hreader _ | refused hreader _ | failed hreader =>
    exact h.beside hplaced rfl rfl rfl (hreads hreader (by simp)) (fun _ => .of_eq rfl) (grows_of_empty hquiet rfl)
  | checked hreader | passed hreader | packet hreader | eof hreader | error hreader _ =>
    exact h.beside hplaced rfl rfl rfl (hreads hreader (by simp)) (fun _ => .of_eq rfl) fun _ _ => id
  | pushed hreader _ =>
    exact h.beside hplaced rfl rfl rfl (hreads hreader (by simp)) (.setInput rfl rfl rfl fun _ => rfl) fun _ _ => id

theorem Severs.step (h : Severs s) (hplaced : Placed s) (hstep : Stepped s events s') : Severs s' := by
  cases hstep with
  | requested hfree => exact h.beside hplaced rfl rfl rfl (fun _ => id) (fun _ => .of_eq rfl) (grows_of_empty hfree rfl)
  | called _ _ => exact h.beside hplaced rfl rfl rfl (fun _ => id) (fun _ => .of_eq rfl) fun _ _ => id
  | performed hperformed => exact h.performed hplaced hperformed
  | worked hempty hworked => exact h.worked hplaced hempty hworked
  | fetched hquiet hfetched => exact h.fetched hplaced hquiet hfetched
  | consumed hconsumed =>
    cases hconsumed with
    | popped _ _ =>
      exact h.beside hplaced rfl rfl rfl (fun _ => id) (.setInput rfl rfl rfl fun _ => rfl) fun _ _ => id
    | _ => exact h.beside hplaced rfl rfl rfl (fun _ => id) (fun _ => .of_eq rfl) fun _ _ => id

theorem severs (hs : system.Reachable s) : Severs s := by
  induction hs with
  | init hinit =>
    obtain ⟨loop, maxRetries, capacity, rfl⟩ := hinit
    exact ⟨fun _ hin => (by cases hin), fun hin => (by cases hin), fun _ hin => (by cases hin),
      fun _ _ _ hlive => absurd rfl hlive⟩
  | step hs hstep ih =>
    obtain ⟨act, hact⟩ := hstep
    exact ih.step (placed hs) (stepped hact)

/-- A recorded stop stays. -/
theorem stopping_run (hs : system.Reachable s) (hstop : s.stopping = true) (hrun : system.Run s events s') :
    s'.stopping = true := by
  induction hrun with
  | refl => exact hstop
  | snoc hrun hstep ih =>
    obtain ⟨act, hact⟩ := hstep
    exact ((placed (hs.run hrun)).kept (stepped hact)).stopping ih

/-! ### The last status -/

/-- The control worker that is done has told a last state, or is bound to. -/
def Concludes (s : AvInputProxy) : Prop := s.control.pc = .done →
  (∀ state retries delay error, .publish state retries delay error ∈ s.todo .control → state.isTerminal = true) ∧
  (s.status.state.isTerminal = true ∨ ∃ state retries delay error, .publish state retries delay error ∈ s.todo .control)

/-- A step that leaves the status and the control worker alone. -/
theorem Concludes.frame (h : Concludes s) (hcontrol : s'.control = s.control) (hstatus : s'.status = s.status)
    (htodo : ∀ state retries delay error, .publish state retries delay error ∈ s'.todo .control ↔
      .publish state retries delay error ∈ s.todo .control) : Concludes s' := by
  intro hpc
  rw [hcontrol] at hpc
  obtain ⟨hall, hone⟩ := h hpc
  refine ⟨fun state retries delay error hmem => hall _ _ _ _ ((htodo _ _ _ _).mp hmem), ?_⟩
  rw [hstatus]
  exact hone.imp id fun ⟨state, retries, delay, error, hmem⟩ => ⟨state, retries, delay, error, (htodo _ _ _ _).mpr hmem⟩

/-- A thread takes a section that tells no state of the proxy. -/
theorem Concludes.passes (h : Concludes s) {task : Task} {rest tasks : List Task} (htodo : s.todo thread = task :: rest)
    (hcontrol : s'.control = s.control) (hstatus : s'.status = s.status)
    (htodo' : s'.todo = Function.update s.todo thread (tasks ++ rest))
    (hhead : ∀ state retries delay error, task ≠ .publish state retries delay error)
    (htasks : ∀ state retries delay error, .publish state retries delay error ∉ tasks) : Concludes s' := by
  refine h.frame hcontrol hstatus fun state retries delay error => ?_
  rw [htodo']
  by_cases ht : .control = thread
  · subst ht
    rw [Function.update_self, htodo, List.mem_append, List.mem_cons]
    constructor
    · exact fun hmem => .inr (hmem.resolve_left (htasks _ _ _ _))
    · exact fun hmem => .inr (hmem.resolve_left fun heq => hhead _ _ _ _ heq.symm)
  · rw [Function.update_of_ne ht]

theorem Concludes.performed (h : Concludes s) (hplaced : Placed s) (hstep : Performed s thread events s') :
    Concludes s' := by
  have hclose : ∀ {b : Bool} {j : ℕ} (state : AvInputProxyState) (retries delay : ℕ) (error : Option Exception),
      .publish state retries delay error ∉ (if b then [Task.closeQueue j] else []) := by
    intro b j state retries delay error
    cases b <;> simp
  cases hstep with
  | stopRecorded htodo =>
    exact h.passes htodo rfl rfl rfl (fun _ _ _ _ => by simp) fun _ _ _ _ => by simp
  | cancelled htodo => exact h.passes htodo rfl rfl rfl (fun _ _ _ _ => by simp) hclose
  | @queueClosed j rest htodo =>
    show Concludes ((s.setInput j (s.inputs j).closeQueue).bind thread ([] ++ rest))
    exact h.passes htodo rfl rfl rfl (fun _ _ _ _ => by simp) fun _ _ _ _ => by simp
  | @inputPublished j status rest htodo =>
    rw [List.append_cons]
    refine h.passes htodo rfl rfl rfl (fun _ _ _ _ => by simp) fun state retries delay error hmem => ?_
    rcases List.mem_append.mp hmem with hmem | hmem
    · exact hclose _ _ _ _ hmem
    · cases List.mem_singleton.mp hmem
  | @foreign j status rest htodo _ =>
    show Concludes (s.bind thread ([] ++ rest))
    exact h.passes htodo rfl rfl rfl (fun _ _ _ _ => by simp) fun _ _ _ _ => by simp
  | inputChanged htodo _ =>
    refine h.passes htodo rfl rfl rfl (fun _ _ _ _ => by simp) fun state retries delay error => ?_
    split <;> simp
  | @published state retries delay error rest htodo =>
    have hok := hplaced.head htodo
    obtain rfl : thread = .control := by
      cases thread with
      | control => rfl
      | user n => exact hok.elim
      | reader j => exact hok.elim
    intro hpc
    obtain ⟨hall, -⟩ := h hpc
    rw [bind_todo_self]
    refine ⟨fun _ _ _ _ hmem => hall _ _ _ _ (htodo ▸ List.mem_cons_of_mem _ hmem), .inl ?_⟩
    exact hall state retries delay error (htodo ▸ List.mem_cons_self)
  | @announced rest htodo =>
    show Concludes ({ s with readStateChanged := true }.bind thread ([] ++ rest))
    exact h.passes htodo rfl rfl rfl (fun _ _ _ _ => by simp) fun _ _ _ _ => by simp

theorem Concludes.finish {state : AvInputProxyState} {retries : ℕ} {error : Option Exception}
    (hterminal : state.isTerminal = true) : Concludes (s.finish state retries error) := by
  intro _
  rw [show (s.finish state retries error).todo .control = [.publish state retries 0 error, .announce]
    from bind_todo_self]
  refine ⟨fun _ _ _ _ hmem => ?_, .inr ⟨_, _, _, _, List.mem_cons_self⟩⟩
  rcases List.mem_cons.mp hmem with heq | hmem
  · rw [(Task.publish.inj heq).1]
    exact hterminal
  · cases List.mem_singleton.mp hmem

theorem Concludes.worked (hstep : Worked s events s') : Concludes s' := by
  have hgoes : s'.control.pc ≠ .done → Concludes s' := fun hnot hpc => absurd hpc hnot
  cases hstep with
  | breaks _ _ | exhausts _ _ _ _ | givesUp _ _ _ | cancelled _ _ _ _ => exact .finish rfl
  | discarded hpc _ => exact hgoes (by rw [show (s.setInput _ _).control = s.control from rfl, hpc]; simp)
  | _ => exact hgoes (by simp [goto, announces, bind])

theorem Concludes.step (h : Concludes s) (hplaced : Placed s) (hstep : Stepped s events s') : Concludes s' := by
  cases hstep with
  | requested _ =>
    exact h.frame rfl rfl fun _ _ _ _ => by rw [bind_todo_of_ne (by simp)]
  | called _ _ => exact h.frame rfl rfl fun _ _ _ _ => Iff.rfl
  | performed hperformed => exact h.performed hplaced hperformed
  | worked _ hworked => exact .worked hworked
  | fetched _ hfetched =>
    cases hfetched with
    | cancelled _ _ | drained _ _ | refused _ _ | failed _ =>
      exact h.frame rfl rfl fun _ _ _ _ => by rw [readerEnds, bind_todo_of_ne (by simp)]; exact Iff.rfl
    | _ => exact h.frame rfl rfl fun _ _ _ _ => Iff.rfl
  | consumed hconsumed => cases hconsumed <;> exact h.frame rfl rfl fun _ _ _ _ => Iff.rfl

theorem concludes (hs : system.Reachable s) : Concludes s := by
  induction hs with
  | init hinit =>
    obtain ⟨loop, maxRetries, capacity, rfl⟩ := hinit
    exact fun hpc => by cases hpc
  | step hs hstep ih =>
    obtain ⟨act, hact⟩ := hstep
    exact ih.step (placed hs) (stepped hact)

end AvInputProxy

end MwStreamer
