import MwStreamer.Input.ProxyReads

/-!
# How a connection of the input proxy ends

The reader of a connection tells one end of it, and the control worker leaves a connection for an end only: one that
was told as broken, or one that a read acknowledged.  `Told` is about what the readers tell, `Ends` about the end the
proxy has taken notice of, and `Undisturbed` about the runs nobody stops.
-/

namespace MwStreamer

namespace AvInputProxy

variable {s s' : AvInputProxy} {events history : List Event} {thread : Thread} {k : ℕ}

/-! ### What the readers tell -/

/-- What the readers have told and are bound to tell. -/
structure Told (history : List Event) (s : AvInputProxy) : Prop where
  bound : ∀ k status, .publishInput k status ∈ s.todo (.reader k) → s.todo (.reader k) = [.publishInput k status]
  published : ∀ k, .inputPublished k .ended ∈ history → s.readers k = .done ∧ (s.inputs k).queued = [] ∧
    (∀ status, .publishInput k status ∉ s.todo (.reader k)) ∧
      ∀ status, .inputChanged k status ∈ s.todo (.reader k) → status.state = .ended
  ended : ∀ k, (s.inputs k).status.state = .ended → .inputPublished k .ended ∈ history

/-- A step that tells no end and leaves the sections of the readers alone. -/
theorem Told.frame (h : Told history s) (hkept : Kept s s')
    (htodo : ∀ k, s'.todo (.reader k) = s.todo (.reader k))
    (hstatus : ∀ k, (s'.inputs k).status.state = .ended → (s.inputs k).status.state = .ended)
    (hevents : ∀ k, .inputPublished k .ended ∉ events) : Told (history ++ events) s' where
  bound k := by
    rw [htodo]
    exact h.bound k
  published k hmem := by
    rw [htodo]
    rcases List.mem_append.mp hmem with hold | hnew
    · obtain ⟨hdone, hqueue, htasks⟩ := h.published k hold
      exact ⟨hkept.done k hdone, hkept.drained k hdone hqueue, htasks⟩
    · exact absurd hnew (hevents k)
  ended k hk := List.mem_append_left _ (h.ended k (hstatus k hk))

/-- The state of a connection another one is written to. -/
theorem ended_setInput {j : ℕ} {input : AvInput} (h : input.status.state = .ended → (s.inputs j).status.state = .ended)
    (k : ℕ) : ((s.setInput j input).inputs k).status.state = .ended → (s.inputs k).status.state = .ended := by
  by_cases hkj : k = j
  · subst hkj
    rw [setInput_self]
    exact h
  · rw [setInput_of_ne hkj]
    exact id

/-- A thread takes a section that tells no end. -/
theorem Told.passes (h : Told history s) (hkept : Kept s s') {task : Task} {rest tasks : List Task}
    (htodo : s.todo thread = task :: rest) (htodo' : s'.todo = Function.update s.todo thread (tasks ++ rest))
    (htasks : ∀ k status, .publishInput k status ∉ tasks ∧ .inputChanged k status ∉ tasks)
    (hhead : ∀ k status, task ≠ .publishInput k status)
    (hstatus : ∀ k, (s'.inputs k).status.state = .ended → (s.inputs k).status.state = .ended)
    (hevents : ∀ k, .inputPublished k .ended ∉ events) : Told (history ++ events) s' := by
  have hback : ∀ {k : ℕ} {x : Task}, ((∃ status, x = .publishInput k status) ∨ ∃ status, x = .inputChanged k status) →
      x ∈ s'.todo (.reader k) → x ∈ s.todo (.reader k) := by
    intro k x hx hmem
    rw [htodo'] at hmem
    by_cases ht : .reader k = thread
    · subst ht
      rw [Function.update_self] at hmem
      rw [htodo]
      rcases List.mem_append.mp hmem with hnew | hold
      · rcases hx with ⟨status, rfl⟩ | ⟨status, rfl⟩
        · exact absurd hnew (htasks k status).1
        · exact absurd hnew (htasks k status).2
      · exact List.mem_cons_of_mem _ hold
    · rw [Function.update_of_ne ht] at hmem
      exact hmem
  constructor
  · intro k status hmem
    have hbound := h.bound k status (hback (.inl ⟨status, rfl⟩) hmem)
    by_cases ht : .reader k = thread
    · subst ht
      rw [htodo] at hbound
      exact absurd (List.cons.inj hbound).1 (hhead k status)
    · rw [htodo', Function.update_of_ne ht]
      exact hbound
  · intro k hmem
    rcases List.mem_append.mp hmem with hold | hnew
    · obtain ⟨hdone, hqueue, hunbound, htells⟩ := h.published k hold
      exact ⟨hkept.done k hdone, hkept.drained k hdone hqueue,
        fun status hin => hunbound status (hback (.inl ⟨status, rfl⟩) hin),
        fun status hin => htells status (hback (.inr ⟨status, rfl⟩) hin)⟩
    · exact absurd hnew (hevents k)
  · intro k hk
    exact List.mem_append_left _ (h.ended k (hstatus k hk))

/-- The reader of a connection tells its end. -/
theorem Told.finished (h : Told history s) (hplaced : Placed s) {status : AvInputStatus} {rest : List Task}
    (htodo : s.todo (.reader k) = .publishInput k status :: rest) :
    Told (history ++ [.inputPublished k status.state]) ((s.setInput k ((s.inputs k).publish status)).bind (.reader k)
      ((if status.state.closesQueue && (s.inputs k).packets then [Task.closeQueue k] else []) ++
        .inputChanged k status :: rest)) := by
  obtain ⟨-, hfinal⟩ : k = k ∧ Final s k status := hplaced.head htodo
  obtain rfl : rest = [] := by
    have hbound := h.bound k status (htodo ▸ List.mem_cons_self)
    rw [htodo] at hbound
    exact (List.cons.inj hbound).2
  have hself : ∀ todo, ((s.setInput k ((s.inputs k).publish status)).bind (.reader k) todo).inputs k =
      (s.inputs k).publish status := fun _ => setInput_self
  have hmem : ∀ task, task ∈ (if status.state.closesQueue && (s.inputs k).packets then [Task.closeQueue k] else []) ++
      [.inputChanged k status] → task = .closeQueue k ∨ task = .inputChanged k status := by
    intro task htask
    rcases List.mem_append.mp htask with hclose | htold
    · split at hclose
      · exact .inl (List.mem_singleton.mp hclose)
      · cases hclose
    · exact .inr (List.mem_singleton.mp htold)
  have hunended : .inputPublished k .ended ∉ history := fun hin =>
    (h.published k hin).2.2.1 status (htodo ▸ List.mem_cons_self)
  have hothers : ∀ {j}, j ≠ k → ∀ todo, ((s.setInput k ((s.inputs k).publish status)).bind (.reader k) todo).todo
      (.reader j) = s.todo (.reader j) := fun hjk _ => bind_todo_of_ne (by simp [hjk])
  constructor
  · intro j state hin
    by_cases hjk : j = k
    · subst hjk
      rw [bind_todo_self] at hin
      rcases hmem _ hin with hclose | htold
      · cases hclose
      · cases htold
    · rw [hothers hjk] at hin ⊢
      exact h.bound j state hin
  · intro j hin
    by_cases hjk : j = k
    · subst hjk
      have hended : status.state = .ended := by
        rcases List.mem_append.mp hin with hold | hnew
        · exact absurd hold hunended
        · exact (Event.inputPublished.inj (List.mem_singleton.mp hnew)).2.symm
      have hqueue : (s.inputs j).queued = [] := by
        rcases hfinal.state with ⟨-, hqueue⟩ | hfailed | ⟨hcancelled, -⟩
        · exact hqueue
        · exact absurd (hended.symm.trans hfailed) (by decide)
        · exact absurd (hended.symm.trans hcancelled) (by decide)
      rw [hself, bind_todo_self]
      refine ⟨hfinal.done, hqueue, fun state hin => ?_, fun state hin => ?_⟩
      · rcases hmem _ hin with hclose | htold
        · cases hclose
        · cases htold
      · rcases hmem _ hin with hclose | htold
        · cases hclose
        · rw [(Task.inputChanged.inj htold).2]
          exact hended
    · rcases List.mem_append.mp hin with hold | hnew
      · rw [hothers hjk, show ((s.setInput k ((s.inputs k).publish status)).bind (.reader k) _).inputs j = s.inputs j
          from setInput_of_ne hjk]
        exact h.published j hold
      · exact absurd (Event.inputPublished.inj (List.mem_singleton.mp hnew)).1 hjk
  · intro j hj
    by_cases hjk : j = k
    · subst hjk
      rw [hself] at hj
      rw [show status.state = .ended from hj]
      exact List.mem_append_right _ (List.mem_singleton_self _)
    · rw [show ((s.setInput k ((s.inputs k).publish status)).bind (.reader k) _).inputs j = s.inputs j
        from setInput_of_ne hjk] at hj
      exact List.mem_append_left _ (h.ended j hj)

theorem Telling.not_ended {status : AvInputStatus} (h : Telling s k status) : status.state ≠ .ended := by
  intro hended
  cases h with
  | opening _ hstate => exact absurd (hstate.symm.trans hended) (by decide)
  | opened _ hstate => exact absurd (hstate.symm.trans hended) (by decide)
  | closed _ hstate => exact absurd (hstate.symm.trans hended) (by decide)
  | broken _ _ hbreaks =>
    rw [breaks, hended] at hbreaks
    exact absurd hbreaks (by decide)

theorem Told.performed (h : Told history s) (hplaced : Placed s) (hstep : Performed s thread events s') :
    Told (history ++ events) s' := by
  have hkept := hstep.kept
  have hclose : ∀ {packets : Bool} (j i : ℕ) (status : AvInputStatus),
      .publishInput i status ∉ (if packets then [Task.closeQueue j] else []) ∧
        .inputChanged i status ∉ (if packets then [Task.closeQueue j] else []) := by
    intro packets j i status
    cases packets <;> simp
  cases hstep with
  | stopRecorded htodo =>
    exact h.passes hkept htodo rfl (fun k status => ⟨by simp, by simp⟩) (fun k status => by simp) (fun _ => id)
      fun _ => by simp
  | cancelled htodo =>
    exact h.passes hkept htodo rfl (fun k status => hclose _ k status) (fun k status => by simp) (ended_setInput id)
      fun _ => by simp
  | @queueClosed j rest htodo =>
    show Told _ ((s.setInput j (s.inputs j).closeQueue).bind thread ([] ++ rest))
    exact h.passes hkept htodo rfl (fun k status => ⟨by simp, by simp⟩) (fun k status => by simp) (ended_setInput id)
      fun _ => by simp
  | @inputPublished j status rest htodo =>
    have hok := hplaced.head htodo
    cases thread with
    | user n => exact hok.elim
    | reader i =>
      obtain ⟨rfl, -⟩ : j = i ∧ Final s j status := hok
      exact h.finished hplaced htodo
    | control =>
      have hunended : status.state ≠ .ended := Telling.not_ended hok
      refine h.frame hkept (fun k => bind_todo_of_ne (by simp))
        (ended_setInput fun hended => absurd hended hunended) fun k hmem => ?_
      exact hunended (Event.inputPublished.inj (List.mem_singleton.mp hmem)).2.symm
  | @foreign j status rest htodo hother =>
    show Told _ (s.bind thread ([] ++ rest))
    exact h.passes hkept htodo rfl (fun k status => ⟨by simp, by simp⟩) (fun k status => by simp) (fun _ => id)
      fun _ => by simp
  | @inputChanged j status rest htodo hinput =>
    refine h.passes hkept htodo rfl (fun k status => ?_) (fun k status => by simp) (fun _ => id) fun _ => by simp
    split <;> simp
  | @published state retries delay error rest htodo =>
    show Told _ ({ s with
      status := { s.status with
        state := state, retryCount := retries, retryDelay := delay, error := error } }.bind thread ([] ++ rest))
    exact h.passes hkept htodo rfl (fun k status => ⟨by simp, by simp⟩) (fun k status => by simp) (fun _ => id)
      fun _ => by simp
  | @announced rest htodo =>
    show Told _ ({ s with readStateChanged := true }.bind thread ([] ++ rest))
    exact h.passes hkept htodo rfl (fun k status => ⟨by simp, by simp⟩) (fun k status => by simp) (fun _ => id)
      fun _ => by simp

/-- A reader ends, and is bound to tell how. -/
theorem Told.readerEnds {status : AvInputStatus} (h : Told history s) (hkept : Kept s (s.readerEnds k status))
    (hrunning : s.readers k ≠ .done) : Told (history ++ []) (s.readerEnds k status) := by
  have hself : (s.readerEnds k status).todo (.reader k) = [.publishInput k status] := bind_todo_self
  have hothers : ∀ j, j ≠ k → (s.readerEnds k status).todo (.reader j) = s.todo (.reader j) := fun j hjk =>
    bind_todo_of_ne (by simp [hjk])
  rw [List.append_nil]
  constructor
  · intro j state hin
    by_cases hjk : j = k
    · subst hjk
      rw [hself] at hin ⊢
      rw [List.mem_singleton.mp hin]
    · rw [hothers j hjk] at hin ⊢
      exact h.bound j state hin
  · intro j hin
    obtain ⟨hdone, hqueue, htasks⟩ := h.published j hin
    have hjk : j ≠ k := fun hjk => hrunning (hjk ▸ hdone)
    rw [hothers j hjk]
    exact ⟨hkept.done j hdone, hqueue, htasks⟩
  · exact h.ended

theorem Told.step (h : Told history s) (hplaced : Placed s) (hstep : Stepped s events s') :
    Told (history ++ events) s' := by
  have hkept := hplaced.kept hstep
  cases hstep with
  | requested _ => exact h.frame hkept (fun _ => bind_todo_of_ne (by simp)) (fun _ => id) fun _ => by simp
  | called _ _ => exact h.frame hkept (fun _ => rfl) (fun _ => id) fun _ => by simp
  | performed hperformed => exact h.performed hplaced hperformed
  | worked _ hworked =>
    cases hworked with
    | uncancelled _ | detached _ | discarded _ _ =>
      exact h.frame hkept (fun _ => rfl) (ended_setInput id) fun _ => by simp
    | queued _ | described _ =>
      exact h.frame hkept (fun _ => bind_todo_of_ne (by simp)) (ended_setInput id) fun _ => by simp
    | breaks _ _ | created _ | failed _ | announced _ _ | closes _ _ | emptied _ _ | exhausts _ _ _ _ | givesUp _ _ _
    | retries _ _ _ | cancelled _ _ _ _ =>
      exact h.frame hkept (fun _ => bind_todo_of_ne (by simp)) (fun _ => id) fun _ => by simp
    | _ => exact h.frame hkept (fun _ => rfl) (fun _ => id) fun _ => by simp
  | @fetched k _ _ _ hfetched =>
    have hrunning : ∀ {reader : Reader}, s.readers k = reader → reader ≠ .done → s.readers k ≠ .done := by
      rintro reader rfl hdone
      exact hdone
    cases hfetched with
    | cancelled hreader _ =>
      refine h.readerEnds hkept ?_
      rcases hreader with hreader | hreader | hreader <;> exact hrunning hreader (by simp)
    | drained hreader _ | refused hreader _ | failed hreader => exact h.readerEnds hkept (hrunning hreader (by simp))
    | pushed _ _ => exact h.frame hkept (fun _ => rfl) (ended_setInput id) fun _ => by simp
    | _ => exact h.frame hkept (fun _ => rfl) (fun _ => id) fun _ => by simp
  | consumed hconsumed =>
    cases hconsumed with
    | popped _ _ => exact h.frame hkept (fun _ => rfl) (ended_setInput id) fun _ => by simp
    | _ => exact h.frame hkept (fun _ => rfl) (fun _ => id) fun _ => by simp

theorem told {s₀ : AvInputProxy} (hinit : system.init s₀) (hrun : system.Run s₀ history s) : Told history s := by
  induction hrun with
  | refl =>
    obtain ⟨loop, maxRetries, capacity, rfl⟩ := hinit
    exact ⟨fun _ _ hin => (by cases hin), fun _ hin => (by cases hin), fun _ hin => (by cases hin)⟩
  | snoc hrun hstep ih =>
    obtain ⟨act, hact⟩ := hstep
    exact ih.step (placed (.run (.init hinit) hrun)) (stepped hact)

/-! ### The end the proxy has taken notice of -/

/-- The connection has been offered to reads. -/
def Pc.offered : Pc → Bool
  | .waiting _ | .retiring _ _ | .closing _ _ | .joining _ _ | .detaching _ _ | .discarding _ _ | .releasing _ _ => true
  | _ => false

/-- The read may still take the end of the connection. -/
def Consumer.reads : Consumer → Bool
  | .taking _ _ _ | .popping _ _ _ | .answering _ _ _ _ | .acknowledging _ _ | .missing _ _ _ => true
  | _ => false

/-- A read has acknowledged the end of the last connection. -/
def Acknowledged (s : AvInputProxy) : Prop := ∃ status, s.terminal = some status ∧ status.state = .ended

/-- The end the proxy has taken notice of, and who has. -/
structure Ends (history : List Event) (s : AvInputProxy) : Prop where
  fresh : ∀ k, s.control.pc.input? = some k → s.control.pc.unlaunched = true → s.terminal = none
  broken : ∀ k status, s.input = some k → s.terminal = some status → status.state ≠ .ended →
    s.readers k = .absent ∨ (s.readers k = .done ∧ ∀ status, .publishInput k status ∉ s.todo (.reader k))
  agrees : ∀ k status, s.input = some k → .inputPublished k .ended ∈ history → s.terminal = some status →
    status.state = .ended
  acknowledges : ∀ k, s.input = some k → Acknowledged s → .acknowledged k ∈ history
  taken : ∀ k, .acknowledged k ∈ history → k < s.made ∧ s.readers k ≠ .absent ∧ (s.input = some k → Acknowledged s)
  offered : ∀ k, s.consumer.input? = some k → s.control.pc.input? = some k → s.control.pc.offered = true
  late : ∀ k, Acknowledged s → s.control.pc.input? = some k → s.control.pc.offered = true
  reads : Acknowledged s → (s.loop = true → s.available = false) ∧ s.consumer.reads = false

theorem Acknowledged.congr (h : Acknowledged s') (hterminal : s'.terminal = s.terminal) : Acknowledged s := by
  obtain ⟨status, hstatus, hended⟩ := h
  exact ⟨status, hterminal ▸ hstatus, hended⟩

/-- A step of neither the control worker nor the consumer that leaves the end alone. -/
theorem Ends.frame (h : Ends history s) (hkept : Kept s s') (hpc : s'.control.pc = s.control.pc)
    (hin : s'.input = s.input) (hterminal : s'.terminal = s.terminal) (hconsumer : s'.consumer = s.consumer)
    (havailable : s'.available = s.available) (habsent : ∀ k, s.readers k = .absent → s'.readers k = .absent)
    (htodo : ∀ k status, s.readers k = .done → .publishInput k status ∈ s'.todo (.reader k) →
      .publishInput k status ∈ s.todo (.reader k))
    (hagrees : ∀ k status, .inputPublished k .ended ∈ events → s.input = some k → s.terminal = some status →
      status.state = .ended)
    (hacks : ∀ k, .acknowledged k ∉ events) : Ends (history ++ events) s' where
  fresh := by
    rw [hpc, hterminal]
    exact h.fresh
  broken k status := by
    rw [hin, hterminal]
    intro hk hstatus hbroken
    rcases h.broken k status hk hstatus hbroken with hnone | ⟨hdone, htold⟩
    · exact .inl (habsent k hnone)
    · exact .inr ⟨hkept.done k hdone, fun status hmem => htold status (htodo k status hdone hmem)⟩
  agrees k status := by
    rw [hin, hterminal]
    intro hk hmem hstatus
    rcases List.mem_append.mp hmem with hold | hnew
    · exact h.agrees k status hk hold hstatus
    · exact hagrees k status hnew hk hstatus
  acknowledges k := by
    rw [hin]
    exact fun hk hack => List.mem_append_left _ (h.acknowledges k hk (hack.congr hterminal))
  taken k hmem := by
    rcases List.mem_append.mp hmem with hold | hnew
    · obtain ⟨hmade, hpresent, hack⟩ := h.taken k hold
      refine ⟨Nat.lt_of_lt_of_le hmade hkept.made, hkept.present k hpresent, fun hk => ?_⟩
      exact (hack (hin ▸ hk)).congr hterminal.symm
    · exact absurd hnew (hacks k)
  offered := by
    rw [hconsumer, hpc]
    exact h.offered
  late := by
    rw [hpc]
    exact fun k hack => h.late k (hack.congr hterminal)
  reads := by
    rw [hkept.loop, havailable, hconsumer]
    exact fun hack => h.reads (hack.congr hterminal)

/-- A connection's end is noticed. -/
theorem Ends.inputChanged (h : Ends history s) (hplaced : Placed s) (htold : Told history s)
    {status : AvInputStatus} {rest : List Task} (htodo : s.todo thread = .inputChanged k status :: rest)
    (hinput : s.input = some k) : Ends (history ++ []) ({ s with
      terminal := if s.terminal.isNone && breaks status then some status else s.terminal }.bind thread
      ((if s.stopping && status.state == AvInputState.opening then [Task.cancel k] else []) ++ rest)) := by
  have hkept : Kept s ({ s with
      terminal := if s.terminal.isNone && breaks status then some status else s.terminal }.bind thread
      ((if s.stopping && status.state == AvInputState.opening then [Task.cancel k] else []) ++ rest)) :=
    .of_eq rfl le_rfl rfl rfl id
  have htasks : ∀ j state, .publishInput j state ∈ ({ s with
      terminal := if s.terminal.isNone && breaks status then some status else s.terminal }.bind thread
      ((if s.stopping && status.state == AvInputState.opening then [Task.cancel k] else []) ++ rest)).todo (.reader j) →
      .publishInput j state ∈ s.todo (.reader j) := by
    intro j state hmem
    by_cases ht : thread = .reader j
    · subst ht
      rw [bind_todo_self] at hmem
      rw [htodo]
      rcases List.mem_append.mp hmem with hnew | hold
      · split at hnew <;> simp at hnew
      · exact List.mem_cons_of_mem _ hold
    · rw [bind_todo_of_ne (Ne.symm ht)] at hmem
      exact hmem
  by_cases hnotices : s.terminal.isNone && breaks status
  · obtain ⟨hnone, hbreaks⟩ := Bool.and_eq_true_iff.mp hnotices
    rw [Option.isNone_iff_eq_none] at hnone
    have hunended : status.state ≠ .ended := fun hended => by
      rw [breaks, hended] at hbreaks
      exact absurd hbreaks (by decide)
    have hunacknowledged : ¬Acknowledged s := by
      rintro ⟨_, hsome, _⟩
      rw [hnone] at hsome
      cases hsome
    have hplace : s.control.pc.input? = some k := hplaced.input ▸ hinput
    have hok := hplaced.head htodo
    -- who tells it: the control worker of a connection without a reader, or the reader that has ended
    have hteller : (s.readers k = .absent ∧ s.control.pc.unlaunched = false) ∨ thread = .reader k ∧
        s.readers k = .done := by
      cases thread with
      | user n => exact hok.elim
      | control =>
        have htelling : Telling s k status := hok
        cases htelling with
        | opening _ hstate =>
          rw [breaks, hstate] at hbreaks
          exact absurd hbreaks (by decide)
        | opened _ hstate =>
          rw [breaks, hstate] at hbreaks
          exact absurd hbreaks (by decide)
        | closed _ hstate =>
          rw [breaks, hstate] at hbreaks
          exact absurd hbreaks (by decide)
        | broken hpc habsent _ => exact .inl ⟨habsent, by rw [hpc]; rfl⟩
      | reader i =>
        obtain ⟨rfl, hfinal⟩ : k = i ∧ Final s k status := hok
        exact .inr ⟨rfl, hfinal.done⟩
    have hunpublished : .inputPublished k .ended ∉ history := fun hin => by
      obtain ⟨hdone, -, -, htells⟩ := htold.published k hin
      rcases hteller with ⟨habsent, -⟩ | ⟨rfl, -⟩
      · exact absurd (habsent.symm.trans hdone) (by simp)
      · exact hunended (htells status (htodo ▸ List.mem_cons_self))
    have hself : (if s.terminal.isNone && breaks status then some status else s.terminal) = some status :=
      if_pos hnotices
    have hnever : ∀ {s' : AvInputProxy}, s'.terminal = some status → ¬Acknowledged s' := by
      rintro s' hterminal ⟨other, hother, hended⟩
      rw [hterminal] at hother
      exact hunended (Option.some.inj hother ▸ hended)
    rw [List.append_nil]
    constructor
    · intro j hj hunlaunched
      have hunlaunched' : s.control.pc.unlaunched = true := hunlaunched
      rcases hteller with ⟨-, hlaunched⟩ | ⟨-, hdone⟩
      · exact absurd (hlaunched.symm.trans hunlaunched') Bool.false_ne_true
      · have habsent := (hplaced.inputs k).unlaunched hplace hunlaunched'
        exact absurd (habsent.symm.trans hdone) (by simp)
    · intro j state hj _ _
      obtain rfl : k = j := Option.some.inj (hinput.symm.trans hj)
      rcases hteller with ⟨habsent, -⟩ | ⟨rfl, hdone⟩
      · exact .inl habsent
      · refine .inr ⟨hdone, fun state hmem => ?_⟩
        have hbound := htold.bound k state (htasks k state hmem)
        rw [htodo] at hbound
        cases hbound
    · intro j state hj hin
      obtain rfl : k = j := Option.some.inj (hinput.symm.trans hj)
      exact absurd hin hunpublished
    · exact fun j _ hack => absurd hack (hnever hself)
    · intro j hin
      obtain ⟨hmade, hpresent, hack⟩ := h.taken j hin
      exact ⟨hmade, hpresent, fun hj => absurd (hack hj) hunacknowledged⟩
    · exact h.offered
    · exact fun j hack => absurd hack (hnever hself)
    · exact fun hack => absurd hack (hnever hself)
  · have hsame : (if s.terminal.isNone && breaks status then some status else s.terminal) = s.terminal :=
      if_neg hnotices
    exact h.frame hkept rfl rfl hsame rfl rfl (fun _ hnone => hnone) (fun j state _ => htasks j state)
      (fun j state hin => by cases hin) fun j hin => by cases hin

theorem Ends.performed (h : Ends history s) (hplaced : Placed s) (htold : Told history s)
    (hstep : Performed s thread events s') : Ends (history ++ events) s' := by
  have hkept := hstep.kept
  -- a section that is taken leaves what a reader is bound to tell
  have hbehind : ∀ {task : Task} {rest : List Task} (tasks : List Task), s.todo thread = task :: rest →
      (∀ j state, .publishInput j state ∉ tasks) → ∀ j state,
      .publishInput j state ∈ Function.update s.todo thread (tasks ++ rest) (.reader j) →
        .publishInput j state ∈ s.todo (.reader j) := by
    intro task rest tasks htodo hnone j state hmem
    by_cases ht : thread = .reader j
    · subst ht
      rw [Function.update_self] at hmem
      rw [htodo]
      exact List.mem_cons_of_mem _ ((List.mem_append.mp hmem).resolve_left (hnone j state))
    · rw [Function.update_of_ne (Ne.symm ht)] at hmem
      exact hmem
  cases hstep with
  | inputChanged htodo hinput => exact h.inputChanged hplaced htold htodo hinput
  | @stopRecorded rest htodo =>
    exact h.frame hkept rfl rfl rfl rfl rfl (fun _ => id)
      (fun j state _ => hbehind _ htodo (fun _ _ => by simp) j state) (fun _ _ hin => by simp at hin) fun _ => by simp
  | @cancelled k rest htodo =>
    exact h.frame hkept rfl rfl rfl rfl rfl (fun _ => id)
      (fun j state _ => hbehind _ htodo (fun _ _ => by split <;> simp) j state) (fun _ _ hin => by simp at hin)
      fun _ => by simp
  | @queueClosed k rest htodo =>
    exact h.frame hkept rfl rfl rfl rfl rfl (fun _ => id)
      (fun j state _ => hbehind [] htodo (fun _ _ => by simp) j state) (fun _ _ hin => by simp at hin)
      fun _ => by simp
  | @foreign k status rest htodo hother =>
    exact h.frame hkept rfl rfl rfl rfl rfl (fun _ => id)
      (fun j state _ => hbehind [] htodo (fun _ _ => by simp) j state) (fun _ _ hin => by simp at hin)
      fun _ => by simp
  | @published state retries delay error rest htodo =>
    exact h.frame hkept rfl rfl rfl rfl rfl (fun _ => id)
      (fun j state _ => hbehind [] htodo (fun _ _ => by simp) j state) (fun _ _ hin => by simp at hin)
      fun _ => by simp
  | @announced rest htodo =>
    exact h.frame hkept rfl rfl rfl rfl rfl (fun _ => id)
      (fun j state _ => hbehind [] htodo (fun _ _ => by simp) j state) (fun _ _ hin => by simp at hin)
      fun _ => by simp
  | @inputPublished k status rest htodo =>
    have hok := hplaced.head htodo
    refine h.frame hkept rfl rfl rfl rfl rfl (fun _ => id) (fun j state _ hmem => ?_)
      (fun j state hin hj hterminal => ?_) fun _ => by simp
    · by_cases ht : thread = .reader j
      · subst ht
        rw [bind_todo_self] at hmem
        rw [htodo]
        rcases List.mem_append.mp hmem with hnew | hold
        · split at hnew <;> simp at hnew
        · rcases List.mem_cons.mp hold with heq | hold
          · cases heq
          · exact List.mem_cons_of_mem _ hold
      · rw [bind_todo_of_ne (Ne.symm ht)] at hmem
        exact hmem
    · obtain ⟨rfl, hended⟩ := Event.inputPublished.inj (List.mem_singleton.mp hin)
      by_contra hbroken
      cases thread with
      | user n => exact hok.elim
      | control => exact Telling.not_ended hok hended.symm
      | reader i =>
        obtain ⟨rfl, hfinal⟩ : j = i ∧ Final s j status := hok
        rcases h.broken j state hj hterminal hbroken with habsent | ⟨-, hnone⟩
        · exact absurd (habsent.symm.trans hfinal.done) (by simp)
        · exact hnone status (htodo ▸ List.mem_cons_self)

/-- The next place needs no more of the end than this one. -/
def Pc.proceeds (pc next : Pc) : Bool := (!next.unlaunched || pc.unlaunched) && (!pc.offered || next.offered)

/-- The control worker goes on at its connection, or stays away from all. -/
theorem Ends.goto (h : Ends history s) (hkept : Kept s s') (hin : s'.input = s.input)
    (hpc : s'.control.pc.input? = s.control.pc.input?) (hproceeds : s.control.pc.proceeds s'.control.pc = true)
    (hterminal : s'.terminal = s.terminal) (hconsumer : s'.consumer = s.consumer)
    (havailable : Acknowledged s → s.available = false → s'.available = false)
    (hreaders : ∀ k, s.readers k = .absent → s'.readers k ≠ .absent → s.control.pc = .launching k)
    (htodo : ∀ k, s'.todo (.reader k) = s.todo (.reader k))
    (hevents : ∀ k, .inputPublished k .ended ∉ events ∧ .acknowledged k ∉ events) : Ends (history ++ events) s' := by
  simp only [Pc.proceeds, Bool.and_eq_true, Bool.or_eq_true, Bool.not_eq_true'] at hproceeds
  obtain ⟨hunlaunched, hoffered⟩ := hproceeds
  have himp : ∀ {a b : Bool}, a = false ∨ b = true → a = true → b = true := by decide
  constructor
  · rw [hpc, hterminal]
    exact fun k hk hnext => h.fresh k hk (himp hunlaunched hnext)
  · rw [hin, hterminal]
    intro k status hk hstatus hbroken
    rw [htodo]
    rcases h.broken k status hk hstatus hbroken with habsent | ⟨hdone, htold⟩
    · by_cases habsent' : s'.readers k = .absent
      · exact .inl habsent'
      · -- before a reader is started there is no end
        have hlaunching := hreaders k habsent habsent'
        have hnone := h.fresh k (by rw [hlaunching]; rfl) (by rw [hlaunching]; rfl)
        rw [hnone] at hstatus
        cases hstatus
    · exact .inr ⟨hkept.done k hdone, htold⟩
  · rw [hin, hterminal]
    intro k status hk hmem
    exact h.agrees k status hk ((List.mem_append.mp hmem).resolve_right (hevents k).1)
  · rw [hin]
    exact fun k hk hack => List.mem_append_left _ (h.acknowledges k hk (hack.congr hterminal))
  · intro k hmem
    obtain ⟨hmade, hpresent, hack⟩ := h.taken k ((List.mem_append.mp hmem).resolve_right (hevents k).2)
    refine ⟨Nat.lt_of_lt_of_le hmade hkept.made, hkept.present k hpresent, fun hk => ?_⟩
    exact (hack (hin ▸ hk)).congr hterminal.symm
  · rw [hconsumer, hpc]
    exact fun k hholds hk => himp hoffered (h.offered k hholds hk)
  · rw [hpc]
    exact fun k hack hk => himp hoffered (h.late k (hack.congr hterminal) hk)
  · rw [hkept.loop, hconsumer]
    intro hack
    have hwas := hack.congr hterminal
    obtain ⟨hunavailable, hreads⟩ := h.reads hwas
    exact ⟨fun hloop => havailable hwas (hunavailable hloop), hreads⟩

/-- The control worker goes on and starts no reader. -/
theorem Ends.leads (h : Ends history s) (hkept : Kept s s') (hin : s'.input = s.input)
    (hpc : s'.control.pc.input? = s.control.pc.input?) (hproceeds : s.control.pc.proceeds s'.control.pc = true)
    (hterminal : s'.terminal = s.terminal) (hconsumer : s'.consumer = s.consumer)
    (havailable : s'.available = s.available) (hreaders : s'.readers = s.readers)
    (htodo : ∀ k, s'.todo (.reader k) = s.todo (.reader k))
    (hevents : ∀ k, .inputPublished k .ended ∉ events ∧ .acknowledged k ∉ events) : Ends (history ++ events) s' :=
  h.goto hkept hin hpc hproceeds hterminal hconsumer (fun _ hnone => havailable.trans hnone)
    (fun _ habsent hpresent => absurd (hreaders ▸ habsent) hpresent) htodo hevents

theorem Ends.worked (h : Ends history s) (hplaced : Placed s) (hdescribed : Described s)
    (hstep : Worked s events s') : Ends (history ++ events) s' := by
  have hkept := hplaced.worked_kept hstep
  have hquiet : ∀ k, Event.inputPublished k .ended ∉ events ∧ Event.acknowledged k ∉ events := by
    intro k
    cases hstep <;> simp
  have hself : ∀ {state : AvInputProxyState} {retries delay : ℕ} {error : Option Exception} {s' : AvInputProxy} (j : ℕ),
      (s'.announces state retries delay error).todo (.reader j) = s'.todo (.reader j) :=
    fun _ => bind_todo_of_ne (by simp)
  cases hstep with
  | breaks hpc _ =>
    rcases hpc with hpc | hpc | ⟨terminal, hpc⟩
    all_goals exact h.leads hkept rfl (by rw [hpc]; rfl) (by rw [hpc]; rfl) rfl rfl rfl rfl hself hquiet
  | exhausts hpc _ _ _ | givesUp hpc _ _ | retries hpc _ _ | cancelled hpc _ _ _ | announced hpc _ =>
    exact h.leads hkept rfl (by rw [hpc]; rfl) (by rw [hpc]; rfl) rfl rfl rfl rfl hself hquiet
  | queued hpc | described hpc | failed hpc | closes hpc _ | emptied hpc _ =>
    exact h.leads hkept rfl (by rw [hpc]; rfl) (by rw [hpc]; rfl) rfl rfl rfl rfl
      (fun _ => bind_todo_of_ne (by simp)) hquiet
  | gaveUp hpc _ =>
    rcases hpc with hpc | hpc | hpc
    all_goals exact h.leads hkept rfl (by rw [hpc]; rfl) (by rw [hpc]; rfl) rfl rfl rfl rfl (fun _ => rfl) hquiet
  | discarded hpc _ =>
    refine h.leads hkept rfl rfl ?_ rfl rfl rfl rfl (fun _ => rfl) hquiet
    show s.control.pc.proceeds s.control.pc = true
    rw [hpc]
    rfl
  | launched hpc =>
    refine h.goto hkept rfl (by rw [hpc]; rfl) (by rw [hpc]; rfl) rfl rfl (fun _ => id) (fun k habsent hpresent => ?_)
      (fun _ => rfl) hquiet
    by_contra hother
    refine hpresent ?_
    have hne : k ≠ _ := fun heq => hother (heq ▸ hpc)
    exact (setReader_of_ne hne).trans habsent
  | offered hpc =>
    refine h.goto hkept rfl (by rw [hpc]; rfl) (by rw [hpc]; rfl) rfl rfl (fun hack _ => ?_)
      (fun k habsent hpresent => absurd habsent hpresent) (fun _ => rfl) hquiet
    have hoffered := h.late _ hack (by rw [hpc]; rfl)
    rw [hpc] at hoffered
    cases hoffered
  | retired hpc =>
    exact h.goto hkept rfl (by rw [hpc]; rfl) (by rw [hpc]; rfl) rfl rfl (fun _ _ => rfl)
      (fun k habsent hpresent => absurd habsent hpresent) (fun _ => rfl) hquiet
  | created hpc =>
    have hnever : ∀ {s' : AvInputProxy}, s'.terminal = none → ¬Acknowledged s' := by
      rintro s' hnone ⟨status, hsome, -⟩
      rw [hnone] at hsome
      cases hsome
    constructor
    · exact fun _ _ _ => rfl
    · exact fun _ _ _ hstatus => by cases hstatus
    · exact fun _ _ _ _ hstatus => by cases hstatus
    · exact fun _ _ hack => absurd hack (hnever rfl)
    · intro k hmem
      obtain ⟨hmade, hpresent, -⟩ := h.taken k ((List.mem_append.mp hmem).resolve_right (hquiet k).2)
      refine ⟨Nat.lt_of_lt_of_le hmade hkept.made, hpresent, fun hk => ?_⟩
      exact absurd hmade (by rw [← Option.some.inj hk]; exact lt_irrefl _)
    · intro k hholds hk
      exact absurd (hdescribed.holds k hholds).made (by rw [← Option.some.inj hk]; exact lt_irrefl _)
    · exact fun _ hack => absurd hack (hnever rfl)
    · exact fun hack => absurd hack (hnever rfl)
  | released hpc =>
    constructor
    · exact fun _ hk => by cases hk
    · exact fun _ _ hk => by cases hk
    · exact fun _ _ hk => by cases hk
    · exact fun _ hk => by cases hk
    · intro k hmem
      obtain ⟨hmade, hpresent, -⟩ := h.taken k ((List.mem_append.mp hmem).resolve_right (hquiet k).2)
      exact ⟨hmade, hpresent, fun hk => by cases hk⟩
    · exact fun _ _ hk => by cases hk
    · exact fun _ _ hk => by cases hk
    · exact fun hack => h.reads hack
  | loops hpc _ | unopened hpc _ | rechecked hpc _ | uncancelled hpc | connected hpc _ | probed hpc _ _ | settled hpc
  | unannounced hpc _ | stopSeen hpc _ | ended hpc _ _ | unclosed hpc _ | joined hpc _ _ | detached hpc
  | reopens hpc _ _ _ | delayed hpc _ =>
    exact h.leads hkept rfl (by rw [hpc]; rfl) (by rw [hpc]; rfl) rfl rfl rfl rfl (fun _ => rfl) hquiet

/-- A step of the consumer that leaves the end alone. -/
theorem Ends.consume (h : Ends history s) (hkept : Kept s s') (hcontrol : s'.control = s.control)
    (hin : s'.input = s.input) (hterminal : s'.terminal = s.terminal) (havailable : s'.available = s.available)
    (hreaders : s'.readers = s.readers) (htodo : s'.todo = s.todo)
    (hoffered : ∀ k, s'.consumer.input? = some k → s.consumer.input? = some k ∨ s.control.pc.offered = true)
    (hreads : Acknowledged s → s.consumer.reads = false → s'.consumer.reads = false)
    (hevents : ∀ k, .inputPublished k .ended ∉ events ∧ .acknowledged k ∉ events) : Ends (history ++ events) s' where
  fresh := by
    rw [hcontrol, hterminal]
    exact h.fresh
  broken := by
    rw [hin, hterminal, hreaders, htodo]
    exact h.broken
  agrees k status := by
    rw [hin, hterminal]
    exact fun hk hmem => h.agrees k status hk ((List.mem_append.mp hmem).resolve_right (hevents k).1)
  acknowledges k := by
    rw [hin]
    exact fun hk hack => List.mem_append_left _ (h.acknowledges k hk (hack.congr hterminal))
  taken k hmem := by
    obtain ⟨hmade, hpresent, hack⟩ := h.taken k ((List.mem_append.mp hmem).resolve_right (hevents k).2)
    refine ⟨Nat.lt_of_lt_of_le hmade hkept.made, hkept.present k hpresent, fun hk => ?_⟩
    exact (hack (hin ▸ hk)).congr hterminal.symm
  offered k hk := by
    rw [hcontrol]
    exact fun hplace => (hoffered k hk).elim (fun hheld => h.offered k hheld hplace) id
  late := by
    rw [hcontrol]
    exact fun k hack => h.late k (hack.congr hterminal)
  reads hack := by
    obtain ⟨hunavailable, hnone⟩ := h.reads (hack.congr hterminal)
    rw [hkept.loop, havailable]
    exact ⟨hunavailable, hreads (hack.congr hterminal) hnone⟩

theorem Pc.offers_offered {pc : Pc} (h : pc.offers = true) : pc.offered = true := by
  cases pc with
  | waiting | retiring => rfl
  | _ => exact absurd h Bool.false_ne_true

theorem Pc.offered_launched {pc : Pc} (h : pc.offered = true) : pc.unlaunched = false := by
  cases pc with
  | waiting | retiring | closing | joining | detaching | discarding | releasing => rfl
  | _ => exact absurd h Bool.false_ne_true

theorem Ends.consumed (h : Ends history s) (hplaced : Placed s) (hdescribed : Described s)
    (hstep : Consumed s events s') : Ends (history ++ events) s' := by
  have hkept := hstep.kept
  have hheld : ∀ {consumer : Consumer}, s.consumer = consumer → ∀ {consumer' : Consumer},
      consumer'.input? = consumer.input? → ∀ k, consumer'.input? = some k →
        s.consumer.input? = some k ∨ s.control.pc.offered = true := by
    rintro consumer rfl consumer' heq k hk
    exact .inl (heq ▸ hk)
  cases hstep with
  | woken _ _ _ | null _ _ | eof _ _ _ | packet _ _ | returned _ | tried _ _ | again _ _ =>
    exact h.consume hkept rfl rfl rfl rfl rfl rfl (fun _ hk => by cases hk) (fun _ _ => rfl) fun _ => by simp
  | unreadable hconsumer _ | takes hconsumer _ | popped hconsumer _ | ended hconsumer _ _ | lost hconsumer _ =>
    exact h.consume hkept rfl rfl rfl rfl rfl rfl (hheld hconsumer rfl)
      (fun _ hnone => absurd hnone (by rw [hconsumer]; simp [Consumer.reads])) fun _ => by simp
  | late hconsumer _ =>
    exact h.consume hkept rfl rfl rfl rfl rfl rfl (hheld hconsumer rfl) (fun _ _ => rfl) fun _ => by simp
  | @captured mode k hconsumer hgoing hstate hexhausted havailable hinput =>
    refine h.consume hkept rfl rfl rfl rfl rfl rfl
      (fun _ _ => .inr (Pc.offers_offered (hdescribed.offers havailable).1)) (fun hack _ => ?_) fun _ => by simp
    -- a read goes to a connection only while its end is not acknowledged
    obtain ⟨status, hterminal, hended⟩ := hack
    cases hloop : s.loop with
    | true =>
      have hunavailable := (h.reads ⟨status, hterminal, hended⟩).1 hloop
      exact absurd (hunavailable.symm.trans havailable) Bool.false_ne_true
    | false =>
      rw [exhausted, hloop, hterminal] at hexhausted
      simp [hended] at hexhausted
  | @acknowledged k d hconsumer hgoing hinput hterminal =>
    have hholds := hdescribed.holds k (by rw [hconsumer]; rfl)
    have hplace : s.control.pc.input? = some k := hplaced.input ▸ hinput
    have hoffered := h.offered k (by rw [hconsumer]; rfl) hplace
    have hself : ∀ {j}, s.input = some j → k = j := fun hj => Option.some.inj (hinput.symm.trans hj)
    have hack : ∀ {consumer : Consumer} {available : Bool}, Acknowledged { s with
        terminal := some { state := .ended }, available := available, consumer := consumer } :=
      ⟨_, rfl, rfl⟩
    constructor
    · intro j _ hunlaunched
      exact absurd ((Pc.offered_launched hoffered).symm.trans hunlaunched) Bool.false_ne_true
    · intro j status _ hstatus hbroken
      exact absurd (Option.some.inj hstatus ▸ rfl) hbroken
    · intro j status _ _ hstatus
      exact Option.some.inj hstatus ▸ rfl
    · intro j hj _
      rw [← hself hj]
      exact List.mem_append_right _ (List.mem_singleton_self _)
    · intro j hmem
      rcases List.mem_append.mp hmem with hold | hnew
      · obtain ⟨hmade, hpresent, -⟩ := h.taken j hold
        exact ⟨hmade, hpresent, fun _ => hack⟩
      · obtain rfl := Event.acknowledged.inj (List.mem_singleton.mp hnew)
        exact ⟨hholds.made, hholds.present, fun _ => hack⟩
    · intro j hj hplace'
      obtain rfl : k = j := Option.some.inj hj
      exact hoffered
    · intro j _ _
      exact hoffered
    · intro _
      refine ⟨fun hloop => ?_, rfl⟩
      show (s.available && !s.loop) = false
      rw [show s.loop = true from hloop]
      exact Bool.and_false _

/-- Only a reader that runs takes a step of its own. -/
theorem Fetched.running (h : Fetched s k events s') : s.readers k ≠ .absent ∧ s.readers k ≠ .done := by
  cases h with
  | cancelled hreader _ =>
    rcases hreader with hreader | hreader | hreader
    all_goals
      rw [hreader]
      simp
  | checked hreader | passed hreader | packet hreader | eof hreader | error hreader _ | drained hreader _
  | pushed hreader _ | refused hreader _ | failed hreader =>
    rw [hreader]
    simp

theorem Ends.step (h : Ends history s) (hplaced : Placed s) (hdescribed : Described s) (htold : Told history s)
    (hstep : Stepped s events s') : Ends (history ++ events) s' := by
  have hkept := hplaced.kept hstep
  cases hstep with
  | requested _ =>
    exact h.frame hkept rfl rfl rfl rfl rfl (fun _ => id)
      (fun k status _ hmem => by rwa [bind_todo_of_ne (by simp)] at hmem) (fun _ _ hin => by cases hin) fun _ => by simp
  | called mode _ =>
    exact h.consume hkept rfl rfl rfl rfl rfl rfl (fun _ hk => by cases hk) (fun _ _ => rfl) fun _ => by simp
  | performed hperformed => exact h.performed hplaced htold hperformed
  | worked _ hworked => exact h.worked hplaced hdescribed hworked
  | consumed hconsumed => exact h.consumed hplaced hdescribed hconsumed
  | @fetched k _ _ _ hfetched =>
    obtain ⟨hpresent, hrunning⟩ := hfetched.running
    have habsent : ∀ {reader : Reader} j, s.readers j = .absent → (s.setReader k reader).readers j = .absent := by
      intro reader j hj
      by_cases hjk : j = k
      · subst hjk
        exact absurd hj hpresent
      · exact (setReader_of_ne hjk).trans hj
    have hends : ∀ {status : AvInputStatus} j state, s.readers j = .done →
        .publishInput j state ∈ (s.readerEnds k status).todo (.reader j) →
          .publishInput j state ∈ s.todo (.reader j) := by
      intro status j state hj hmem
      by_cases hjk : j = k
      · subst hjk
        exact absurd hj hrunning
      · rw [readerEnds, bind_todo_of_ne (by simp [hjk])] at hmem
        exact hmem
    cases hfetched with
    | cancelled _ _ | drained _ _ | refused _ _ | failed _ =>
      exact h.frame hkept rfl rfl rfl rfl rfl habsent hends (fun _ _ hin => by cases hin) fun _ => by simp
    | pushed _ _ | checked _ | passed _ | packet _ | eof _ | error _ _ =>
      exact h.frame hkept rfl rfl rfl rfl rfl habsent (fun _ _ _ => id) (fun _ _ hin => by simp at hin) fun _ => by simp

theorem ends {s₀ : AvInputProxy} (hinit : system.init s₀) (hrun : system.Run s₀ history s) : Ends history s := by
  induction hrun with
  | refl =>
    obtain ⟨loop, maxRetries, capacity, rfl⟩ := hinit
    have hnever : ¬Acknowledged (start loop maxRetries capacity) := fun ⟨_, hsome, _⟩ => by cases hsome
    exact ⟨fun _ hk => (by cases hk), fun _ _ hk => (by cases hk), fun _ _ hk => (by cases hk),
      fun _ hk => (by cases hk), fun _ hin => (by cases hin), fun _ hk => (by cases hk),
      fun _ hack => absurd hack hnever, fun hack => absurd hack hnever⟩
  | snoc hrun hstep ih =>
    obtain ⟨act, hact⟩ := hstep
    have hreachable := Transition.Reachable.run (.init hinit) hrun
    exact ih.step (placed hreachable) (described hreachable) (told hinit hrun) (stepped hact)

end AvInputProxy

end MwStreamer
