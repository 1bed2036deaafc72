import MwStreamer.Input.ProxyLaw

/-!
# The packets of a connection that fails

The control worker leaves a connection that has failed at once, whatever is still in its queue.  A run is careful when
every cancellation finds the queue empty and no packet of it with the consumer; then all that was pushed is returned
before anything of a later connection.
-/

namespace MwStreamer

namespace AvInputProxy

variable {s s' : AvInputProxy} {events history : List Event} {thread : Thread} {k : ℕ}

/-! ### Who cancels a connection -/

/-- What a thread is bound to do while nobody stops the proxy: only `Close` cancels a connection. -/
def Calm (pc : Pc) : Thread → Task → Prop
  | .user _, task => task = .requestStop
  | .control, .cancel k => pc.input? = some k ∧ pc.isJoining = true
  | _, _ => True

def Unstopped (s : AvInputProxy) : Prop := ∀ t, ∀ task ∈ s.todo t, Calm s.control.pc t task

/-- A thread takes a section. -/
theorem Unstopped.performs (h : Unstopped s) {task : Task} {rest tasks : List Task}
    (htodo : s.todo thread = task :: rest) (hpc : s'.control = s.control)
    (htodo' : s'.todo = Function.update s.todo thread (tasks ++ rest))
    (htasks : ∀ x ∈ tasks, Calm s.control.pc thread x) : Unstopped s' := by
  intro t x hx
  rw [hpc]
  rw [htodo'] at hx
  by_cases ht : t = thread
  · subst ht
    rw [Function.update_self] at hx
    rcases List.mem_append.mp hx with hnew | hold
    · exact htasks x hnew
    · exact h t x (htodo ▸ List.mem_cons_of_mem _ hold)
  · rw [Function.update_of_ne ht] at hx
    exact h t x hx

theorem Unstopped.performed (h : Unstopped s) (hgoing : s'.stopping = false) (hstep : Performed s thread events s') :
    Unstopped s' := by
  -- a user is bound to nothing but to record the stop
  have huser : ∀ {task : Task} {rest : List Task}, s.todo thread = task :: rest → task ≠ .requestStop →
      ∀ x, (∀ k, x ≠ .cancel k) → Calm s.control.pc thread x := by
    intro task rest htodo hhead x hx
    have hcalm := h thread task (htodo ▸ List.mem_cons_self)
    cases thread with
    | user n => exact absurd hcalm hhead
    | reader j => trivial
    | control =>
      cases x with
      | cancel k => exact absurd rfl (hx k)
      | _ => trivial
  cases hstep with
  | stopRecorded htodo => cases hgoing
  | cancelled htodo =>
    refine h.performs htodo rfl rfl fun x hx => huser htodo (by simp) x fun k => ?_
    split at hx
    · rw [List.mem_singleton.mp hx]
      simp
    · cases hx
  | @queueClosed k rest htodo =>
    show Unstopped ((s.setInput k (s.inputs k).closeQueue).bind thread ([] ++ rest))
    exact h.performs htodo rfl rfl fun x hx => by cases hx
  | @inputPublished k status rest htodo =>
    rw [List.append_cons]
    refine h.performs htodo rfl rfl fun x hx => huser htodo (by simp) x fun k => ?_
    rcases List.mem_append.mp hx with hclose | htold
    · split at hclose
      · rw [List.mem_singleton.mp hclose]
        simp
      · cases hclose
    · rw [List.mem_singleton.mp htold]
      simp
  | @foreign k status rest htodo hother =>
    show Unstopped (s.bind thread ([] ++ rest))
    exact h.performs htodo rfl rfl fun x hx => by cases hx
  | @inputChanged k status rest htodo hinput =>
    refine h.performs htodo rfl rfl fun x hx => ?_
    rw [show s.stopping = false from hgoing] at hx
    cases hx
  | @published state retries delay error rest htodo =>
    show Unstopped ({ s with
      status := { s.status with
        state := state, retryCount := retries, retryDelay := delay, error := error } }.bind thread ([] ++ rest))
    exact h.performs htodo rfl rfl fun x hx => by cases hx
  | @announced rest htodo =>
    show Unstopped ({ s with readStateChanged := true }.bind thread ([] ++ rest))
    exact h.performs htodo rfl rfl fun x hx => by cases hx

/-- A step of another kind binds a thread to calm sections only. -/
theorem Unstopped.binds (h : Unstopped s) {tasks : List Task} (hpc : thread ≠ .control → s'.control = s.control)
    (hempty : thread = .control → s.todo .control = []) (htodo' : s'.todo = Function.update s.todo thread tasks)
    (htasks : ∀ x ∈ tasks, Calm s'.control.pc thread x) : Unstopped s' := by
  intro t x hx
  rw [htodo'] at hx
  by_cases ht : t = thread
  · subst ht
    rw [Function.update_self] at hx
    exact htasks x hx
  · rw [Function.update_of_ne ht] at hx
    by_cases hcontrol : thread = .control
    · have hcalm := h t x hx
      cases t with
      | user n => exact hcalm
      | reader j => trivial
      | control => exact absurd hcontrol.symm ht
    · rw [hpc hcontrol]
      exact h t x hx

/-- The control worker goes on and is bound to nothing. -/
theorem Unstopped.goto (h : Unstopped s) (hempty : s.todo .control = []) (htodo : s'.todo = s.todo) : Unstopped s' := by
  intro t x hx
  rw [htodo] at hx
  have hcalm := h t x hx
  cases t with
  | user n => exact hcalm
  | reader j => trivial
  | control =>
    rw [hempty] at hx
    cases hx

theorem Unstopped.worked (h : Unstopped s) (hempty : s.todo .control = []) (hstep : Worked s events s') :
    Unstopped s' := by
  have hannounces : ∀ {state : AvInputProxyState} {retries delay : ℕ} {error : Option Exception} {pc : Pc},
      ∀ x ∈ [Task.publish state retries delay error, .announce], Calm pc .control x := by
    intro state retries delay error pc x hx
    rcases List.mem_cons.mp hx with rfl | hx
    · trivial
    · rw [List.mem_singleton.mp hx]
      trivial
  cases hstep with
  | breaks _ _ | created _ | announced _ _ | exhausts _ _ _ _ | givesUp _ _ _ | retries _ _ _ | cancelled _ _ _ _ =>
    exact h.binds (fun hnot => absurd rfl hnot) (fun _ => hempty) rfl hannounces
  | queued _ | described _ | failed _ | emptied _ _ =>
    refine h.binds (fun hnot => absurd rfl hnot) (fun _ => hempty) rfl fun x hx => ?_
    rw [List.mem_singleton.mp hx]
    trivial
  | closes _ _ =>
    refine h.binds (fun hnot => absurd rfl hnot) (fun _ => hempty) rfl fun x hx => ?_
    rw [List.mem_singleton.mp hx]
    exact ⟨rfl, rfl⟩
  | _ => exact h.goto hempty rfl

theorem unstopped {s₀ : AvInputProxy} (hinit : system.init s₀) (hrun : system.Run s₀ history s)
    (hstop : .stopRecorded ∉ history) : Unstopped s := by
  induction hrun with
  | refl =>
    obtain ⟨loop, maxRetries, capacity, rfl⟩ := hinit
    exact fun _ _ hx => by cases hx
  | @snoc t u history events hrun hstep ih =>
    obtain ⟨act, hact⟩ := hstep
    have hgoing := going hinit (hrun.snoc ⟨act, hact⟩) hstop
    rw [List.mem_append, not_or] at hstop
    have hwas := ih hstop.1
    have hsame : u.control = t.control → u.todo = t.todo → Unstopped u := by
      intro hpc htodo s x hx
      rw [hpc]
      exact hwas s x (htodo ▸ hx)
    cases stepped hact with
    | requested _ =>
      refine hwas.binds (fun _ => rfl) (fun hcontrol => by cases hcontrol) rfl fun x hx => ?_
      rw [List.mem_singleton.mp hx]
      rfl
    | called _ _ => exact hsame rfl rfl
    | performed hperformed => exact hwas.performed hgoing hperformed
    | worked hempty hworked => exact hwas.worked hempty hworked
    | fetched _ hfetched =>
      cases hfetched with
      | cancelled _ _ | drained _ _ | refused _ _ | failed _ =>
        exact hwas.binds (fun _ => rfl) (fun hcontrol => by cases hcontrol) rfl fun x _ => trivial
      | _ => exact hsame rfl rfl
    | consumed hconsumed => cases hconsumed <;> exact hsame rfl rfl

/-- `Close` has begun to cancel the connection. -/
def Pc.closes : Pc → Bool
  | .joining _ _ | .detaching _ _ | .discarding _ _ | .releasing _ _ => true
  | _ => false

/-- A connection that a step does not cancel. -/
theorem cancelled_of_update {j : ℕ} {input : AvInput} (hnow : (s'.inputs k).cancelled = true)
    (hinputs : s'.inputs = Function.update s.inputs j input)
    (hinput : input.cancelled = true → (s.inputs j).cancelled = true) : (s.inputs k).cancelled = true := by
  rw [hinputs] at hnow
  by_cases hkj : k = j
  · subst hkj
    rw [Function.update_self] at hnow
    exact hinput hnow
  · rwa [Function.update_of_ne hkj] at hnow

theorem Worked.cancels_none (h : Worked s events s') (hnow : (s'.inputs k).cancelled = true) :
    (s.inputs k).cancelled = true := by
  cases h with
  | uncancelled _ => exact cancelled_of_update hnow rfl fun h => by cases h
  | queued _ | described _ | detached _ | discarded _ _ => exact cancelled_of_update hnow rfl fun h => h
  | _ => exact hnow

theorem Fetched.cancels_none {j : ℕ} (h : Fetched s j events s') (hnow : (s'.inputs k).cancelled = true) :
    (s.inputs k).cancelled = true := by
  cases h with
  | pushed _ _ => exact cancelled_of_update hnow rfl fun h => h
  | _ => exact hnow

theorem Consumed.cancels_none (h : Consumed s events s') (hnow : (s'.inputs k).cancelled = true) :
    (s.inputs k).cancelled = true := by
  cases h with
  | popped _ _ => exact cancelled_of_update hnow rfl fun h => h
  | _ => exact hnow

/-- A connection is cancelled in a section a thread is bound to take. -/
theorem cancels {act : Act} (hact : s.next act = some (events, s')) (hwas : (s.inputs k).cancelled = false)
    (hnow : (s'.inputs k).cancelled = true) : ∃ thread rest, act = .perform thread ∧
      s.todo thread = .cancel k :: rest ∧ events = [] ∧ s'.control = s.control ∧ s'.readers = s.readers := by
  have hnever : ∀ {P : Prop}, (s.inputs k).cancelled = true → P := fun hcancelled =>
    absurd (hwas.symm.trans hcancelled) Bool.false_ne_true
  cases act with
  | requestStop n =>
    rw [next] at hact
    split at hact
    · cases hact
      exact hnever hnow
    · cases hact
  | call mode =>
    rw [next] at hact
    split at hact
    · cases hact
      exact hnever hnow
    · cases hact
  | work answer =>
    rw [next] at hact
    split at hact
    · exact hnever ((work_worked hact).cancels_none hnow)
    · cases hact
  | read j answer =>
    rw [next] at hact
    split at hact
    · exact hnever ((read_fetched hact).cancels_none hnow)
    · cases hact
  | consume => exact hnever ((consume_consumed hact).cancels_none hnow)
  | perform thread =>
    cases perform_performed hact with
    | @cancelled j rest htodo =>
      by_cases hkj : k = j
      · subst hkj
        exact ⟨thread, rest, rfl, htodo, rfl, rfl, rfl⟩
      · rw [show ((s.setInput j _).bind thread _).inputs k = s.inputs k from setInput_of_ne hkj] at hnow
        exact hnever hnow
    | queueClosed _ | inputPublished _ => exact hnever (cancelled_of_update hnow rfl fun h => h)
    | stopRecorded _ | foreign _ _ | inputChanged _ _ | published _ | announced _ => exact hnever hnow

/-- While nobody stops the proxy a connection is cancelled by its `Close`. -/
theorem uncancelled {s₀ : AvInputProxy} (hinit : system.init s₀) (hrun : system.Run s₀ history s)
    (hstop : .stopRecorded ∉ history) (hplace : s.control.pc.input? = some k)
    (hcancelled : (s.inputs k).cancelled = true) : s.control.pc.closes = true := by
  induction hrun with
  | refl =>
    obtain ⟨loop, maxRetries, capacity, rfl⟩ := hinit
    cases hplace
  | @snoc t u history events hrun hstep ih =>
    obtain ⟨act, hact⟩ := hstep
    rw [List.mem_append, not_or] at hstop
    have hreachable := Transition.Reachable.run (.init hinit) hrun
    have hplaced := placed hreachable
    cases hwas : (t.inputs k).cancelled with
    | false =>
      obtain ⟨thread, rest, -, htodo, -, hcontrol, -⟩ := cancels hact hwas hcancelled
      have hcalm := unstopped hinit hrun hstop.1 thread (.cancel k) (htodo ▸ List.mem_cons_self)
      have hok := hplaced.head htodo
      rw [hcontrol]
      cases thread with
      | user n => cases hcalm
      | reader j => exact hok.elim
      | control =>
        have hjoining : t.control.pc.isJoining = true := hcalm.2
        cases hpc : t.control.pc with
        | joining j terminal => rfl
        | _ =>
          rw [hpc] at hjoining
          cases hjoining
    | true =>
      have hsame : u.control = t.control → u.control.pc.closes = true := fun heq => by
        rw [heq] at hplace ⊢
        exact ih hstop.1 hplace hwas
      cases stepped hact with
      | requested _ | called _ _ => exact hsame rfl
      | performed hperformed => cases hperformed <;> exact hsame rfl
      | fetched _ hfetched => cases hfetched <;> exact hsame rfl
      | consumed hconsumed => cases hconsumed <;> exact hsame rfl
      | worked _ hworked =>
        -- a place before `Close` has no cancelled connection
        have hnot : ∀ {pc : Pc}, t.control.pc = pc → pc.input? = some k → pc.closes = false → False := by
          rintro pc rfl hin hclosed
          exact absurd (hclosed.symm.trans (ih hstop.1 hin hwas)) Bool.false_ne_true
        cases hworked with
        | created hpc =>
          obtain rfl : t.made = k := Option.some.inj hplace
          rw [(hplaced.fresh t.made le_rfl).1] at hwas
          cases hwas
        | discarded hpc _ => exact hsame rfl
        | joined _ _ _ | detached _ | emptied _ _ => rfl
        | closes _ _ => rfl
        | unclosed _ _ => rfl
        | gaveUp hpc _ =>
          rcases hpc with hpc | hpc | hpc
          all_goals exact (hnot hpc hplace rfl).elim
        | breaks _ _ | loops _ _ | released _ | reopens _ _ _ _ | exhausts _ _ _ _ | givesUp _ _ _ | retries _ _ _
        | cancelled _ _ _ _ | delayed _ _ => cases hplace
        | unopened hpc _ | rechecked hpc _ | uncancelled hpc | queued hpc | connected hpc _ | probed hpc _ _
        | described hpc | launched hpc | failed hpc | settled hpc | unannounced hpc _ | announced hpc _ | offered hpc
        | stopSeen hpc _ | ended hpc _ _ | retired hpc => exact (hnot hpc hplace rfl).elim

/-- The reader of a connection that is left has ended. -/
theorem left_done {s₀ : AvInputProxy} (hinit : system.init s₀) (hrun : system.Run s₀ history s)
    (hstop : .stopRecorded ∉ history) (hplace : s.control.pc.input? = some k) {status : AvInputStatus}
    (hstatus : s.control.pc.terminal? = some status) (hpresent : s.readers k ≠ .absent) : s.readers k = .done := by
  have hends := ends hinit hrun
  have hinput : s.input = some k := (placed (.run (.init hinit) hrun)).input.trans hplace
  rcases (undisturbed hinit hrun hstop).left k status hplace hstatus with ⟨habsent, -⟩ | hterminal
  · exact absurd habsent hpresent
  · by_cases hended : status.state = .ended
    · -- whoever acknowledged the end has found it told
      have hpos : 0 < acknowledgements history k :=
        List.count_pos_iff.mpr (hends.acknowledges k hinput ⟨status, hterminal, hended⟩)
      have hsum := (counted hinit hrun hstop k).1
      have hfinished : s.consumer.ends k = true ∨ ∃ d, .returned (some k) .eof d ∈ history := by
        cases hreturns : s.consumer.returns k with
        | true =>
          refine .inl ?_
          cases hconsumer : s.consumer with
          | returning j d =>
            rw [hconsumer] at hreturns
            exact hreturns
          | _ =>
            rw [hconsumer] at hreturns
            cases hreturns
        | false =>
          rw [hreturns] at hsum
          simp only [Bool.false_eq_true, if_false, Nat.add_zero] at hsum
          obtain ⟨event, hevent, hend⟩ := List.countP_pos_iff.mp (show 0 < endsOf history k by omega)
          match event with
          | .returned (some j) .eof d =>
            obtain rfl : j = k := beq_iff_eq.mp hend
            exact .inr ⟨d, hevent⟩
      exact ((told hinit hrun).published k ((results hinit hrun).finished k hfinished).1).1
    · rcases hends.broken k status hinput hterminal hended with habsent | ⟨hdone, -⟩
      · exact absurd habsent hpresent
      · exact hdone

/-- A reader is started by the control worker. -/
theorem Stepped.launches (hstep : Stepped s events s') (habsent : s.readers k = .absent)
    (hpresent : s'.readers k ≠ .absent) : s.control.pc = .launching k := by
  have hother : ∀ {t : AvInputProxy} {j : ℕ} {reader : Reader}, t.readers k ≠ .absent →
      t.readers = Function.update s.readers j reader → k = j := by
    intro t j reader hnow hreaders
    by_contra hkj
    rw [hreaders, Function.update_of_ne hkj] at hnow
    exact hnow habsent
  cases hstep with
  | requested _ | called _ _ => exact absurd habsent hpresent
  | performed hperformed => cases hperformed <;> exact absurd habsent hpresent
  | consumed hconsumed => cases hconsumed <;> exact absurd habsent hpresent
  | worked _ hworked =>
    cases hworked with
    | launched hpc =>
      obtain rfl := hother hpresent rfl
      exact hpc
    | _ => exact absurd habsent hpresent
  | @fetched j _ _ _ hfetched =>
    have hrunning := hfetched.running.1
    have hkj : k = j := by
      cases hfetched <;> exact hother hpresent rfl
    subst hkj
    exact absurd habsent hrunning

/-! ### Careful runs -/

/-- The step cancels a connection of which a packet is in the queue or with the consumer. -/
def loses (s : AvInputProxy) : Act → Bool
  | .perform thread =>
    match s.todo thread with
    | .cancel k :: _ => !(stock k s).isEmpty
    | _ => false
  | _ => false

/-- The proxy, as long as no cancellation finds a packet. -/
def careful : Transition AvInputProxy Event where
  init := system.init
  step s events s' := ∃ act, s.loses act = false ∧ s.next act = some (events, s')

theorem not_loses {rest : List Task} (h : s.loses (.perform thread) = false)
    (htodo : s.todo thread = .cancel k :: rest) : stock k s = [] := by
  rw [loses, htodo] at h
  simpa using h

theorem careful_run {s₀ : AvInputProxy} (hrun : careful.Run s₀ history s) : system.Run s₀ history s := by
  induction hrun with
  | refl => exact .refl _
  | snoc _ hstep ih =>
    obtain ⟨act, -, hact⟩ := hstep
    exact ih.snoc ⟨act, hact⟩

/-- Of a connection whose reader has ended and of which nothing is left, nothing comes any more. -/
theorem Placed.exhausted_step (h : Placed s) (hstep : Stepped s events s') (hdone : s.readers k = .done)
    (hstock : stock k s = []) : stock k s' = [] ∧ pushed events k = [] ∧ returned events k = [] := by
  obtain ⟨hheld, hqueue⟩ := List.append_eq_nil_iff.mp hstock
  have hqueue' := (h.kept hstep).drained k hdone hqueue
  have hkept : s'.consumer.held k = [] → pushed events k = [] → returned events k = [] →
      stock k s' = [] ∧ pushed events k = [] ∧ returned events k = [] := fun hheld' hpushed hreturned =>
    ⟨List.append_eq_nil_iff.mpr ⟨hheld', hqueue'⟩, hpushed, hreturned⟩
  cases hstep with
  | requested _ => exact hkept hheld rfl rfl
  | called _ _ => exact hkept rfl rfl rfl
  | performed hperformed => cases hperformed <;> exact hkept hheld rfl rfl
  | worked _ hworked => cases hworked <;> exact hkept hheld rfl rfl
  | @fetched j _ _ _ hfetched =>
    have hrunning := hfetched.running.2
    cases hfetched with
    | pushed _ _ =>
      refine hkept hheld ?_ rfl
      have hjk : j ≠ k := fun hjk => hrunning (hjk ▸ hdone)
      simp [pushed, Event.pushedInto, hjk]
    | _ => exact hkept hheld rfl rfl
  | consumed hconsumed =>
    cases hconsumed with
    | @popped mode j d hconsumer _ =>
      refine hkept ?_ rfl rfl
      show (if j = k then (s.inputs j).queued.head?.toList else []) = []
      by_cases hjk : j = k
      · subst hjk
        rw [if_pos rfl, hqueue]
        rfl
      · rw [if_neg hjk]
    | @packet mode j d packet hconsumer _ =>
      have hjk : j ≠ k := fun hjk => by
        subst hjk
        rw [hconsumer] at hheld
        simp [Consumer.held] at hheld
      exact hkept rfl rfl (by simp [returned, Event.returnedFrom, hjk])
    | ended hconsumer _ _ | lost hconsumer _ => exact hkept rfl rfl rfl
    | woken _ _ _ | null _ _ | eof _ _ _ | captured _ _ _ _ _ _ | unreadable _ _ | takes _ _ | acknowledged _ _ _ _
    | late _ _ | returned _ | tried _ _ | again _ _ => exact hkept rfl rfl rfl

/-- Of a connection that is cancelled in a careful run everything has been returned. -/
theorem careful_returned {s₀ : AvInputProxy} (hinit : system.init s₀) (hrun : careful.Run s₀ history s)
    (hstop : .stopRecorded ∉ history) (hpresent : s.readers k ≠ .absent) (hcancelled : (s.inputs k).cancelled = true) :
    s.readers k = .done ∧ stock k s = [] ∧ pushed history k = returned history k := by
  induction hrun with
  | refl =>
    obtain ⟨loop, maxRetries, capacity, rfl⟩ := hinit
    exact absurd rfl hpresent
  | @snoc t u history events hrun hstep ih =>
    obtain ⟨act, hcareful, hact⟩ := hstep
    rw [List.mem_append, not_or] at hstop
    have hbefore := careful_run hrun
    have hplaced := placed (.run (.init hinit) hbefore)
    have hstepped := stepped hact
    by_cases hwas : t.readers k ≠ .absent ∧ (t.inputs k).cancelled = true
    · obtain ⟨hdone, hstock, hall⟩ := ih hstop.1 hwas.1 hwas.2
      obtain ⟨hstock', hpushed, hreturned⟩ := hplaced.exhausted_step hstepped hdone hstock
      refine ⟨(hplaced.kept hstepped).done k hdone, hstock', ?_⟩
      rw [pushed_append, returned_append, hall, hpushed, hreturned]
    · cases huncancelled : (t.inputs k).cancelled with
      | true =>
        -- a reader is not started on a cancelled connection
        have habsent : t.readers k = .absent := by
          by_contra hnot
          exact hwas ⟨hnot, huncancelled⟩
        have hlaunching := hstepped.launches habsent hpresent
        have hcloses := uncancelled hinit hbefore hstop.1 (k := k) (by rw [hlaunching]; rfl) huncancelled
        rw [hlaunching] at hcloses
        cases hcloses
      | false =>
        obtain ⟨thread, rest, rfl, htodo, rfl, -, hreaders⟩ := cancels hact huncancelled hcancelled
        have hstock : stock k t = [] := not_loses hcareful htodo
        have hcalm := unstopped hinit hbefore hstop.1 thread (.cancel k) (htodo ▸ List.mem_cons_self)
        have hok := hplaced.head htodo
        cases thread with
        | user n => cases hcalm
        | reader j => exact hok.elim
        | control =>
          obtain ⟨hplace, hjoining⟩ := hcalm
          have hstatus : ∃ status, t.control.pc.terminal? = some status := by
            cases hpc : t.control.pc with
            | joining j terminal => exact ⟨terminal, rfl⟩
            | _ =>
              rw [hpc] at hjoining
              cases hjoining
          obtain ⟨status, hstatus⟩ := hstatus
          have hdone := left_done hinit hbefore hstop.1 hplace hstatus (hreaders ▸ hpresent)
          obtain ⟨hstock', -, -⟩ := hplaced.exhausted_step hstepped hdone hstock
          have hall := pushed_eq hinit hbefore (k := k) (.inr huncancelled)
          refine ⟨(hplaced.kept hstepped).done k hdone, hstock', ?_⟩
          rw [List.append_nil, hall, hstock, List.append_nil]

/-- Of a connection that is left in a careful run everything has been returned. -/
theorem Placed.careful_left {s₀ : AvInputProxy} (h : Placed s) (hinit : system.init s₀)
    (hrun : careful.Run s₀ history s) (hstop : .stopRecorded ∉ history) (hlt : k + 1 < s.made)
    (hheld : s.consumer.held k = []) :
    pushed history k = returned history k := by
  obtain ⟨-, -, hover⟩ := (h.inputs k).gone (by omega) fun hplace => by
    have hlast := h.made k hplace
    omega
  by_cases habsent : s.readers k = .absent
  · have hall := pushed_eq hinit (careful_run hrun) (.inl habsent)
    rw [hall, stock, hheld, ((h.inputs k).absent habsent).1, List.append_nil, List.append_nil]
  · exact (careful_returned hinit hrun hstop habsent (hover.resolve_right habsent)).2.2

/-! ### Failures -/

/-- **A failure loses no packet when the cancellation finds none.**  Before a packet of a later connection is returned,
all that was pushed into an earlier one has been returned, with its description. -/
theorem failure_drains {s₀ : AvInputProxy} {before after : List Event} {j : ℕ} {packet : Packet}
    {d : Option Description} (hinit : careful.init s₀) (hrun : careful.Run s₀ history s)
    (hstop : .stopRecorded ∉ history)
    (hsplit : history = before ++ .returned (some j) (.packet packet) d :: after) (hkj : k < j) :
    returned before k = pushed history k ∧ ∀ result d, .returned (some k) result d ∈ history →
      d = some { input := k, info := (s.inputs k).info } := by
  refine ⟨?_, fun result d hmem => ((results hinit (careful_run hrun)).source k result d hmem).1.eq⟩
  have hone : ∀ s es t, careful.step s es t → es.length ≤ 1 := fun _ _ _ ⟨_, _, hact⟩ => (stepped hact).length_le
  obtain ⟨t, u, hbefore, ⟨act, -, hact⟩, hafter⟩ := hrun.split_single hone hsplit
  have hplaced := placed (.run (.init hinit) (careful_run hbefore))
  have hconsumer : ∃ mode, t.consumer = .answering mode j d (some packet) := by
    cases (stepped hact).result with
    | nothing hnone => exact absurd (List.mem_singleton_self _) (hnone j (.packet packet) d)
    | packet hconsumer => exact ⟨_, hconsumer⟩
  obtain ⟨mode, hconsumer⟩ := hconsumer
  have hmade := ((described (.run (.init hinit) (careful_run hbefore))).holds j (by rw [hconsumer]; rfl)).made
  have hstop' : .stopRecorded ∉ before := fun hmem => hstop (by
    rw [hsplit]
    exact List.mem_append_left _ hmem)
  have hall := hplaced.careful_left hinit hbefore hstop' (k := k) (by omega) (by
    rw [hconsumer]
    exact if_neg (by omega))
  -- behind that packet no reader of an earlier connection runs
  have hover : ∀ first v, system.Run s₀ ((before ++ [.returned (some j) (.packet packet) d]) ++ first) v →
      v.readers k = .absent ∨ v.readers k = .done := by
    intro first v hfirst
    have hplaced' := placed (.run (.init hinit) hfirst)
    have hmade' := ((results hinit hfirst).source j (.packet packet) d (by simp)).1.made
    refine ((hplaced'.inputs k).gone (by omega) fun hplace => ?_).1
    have hlast := hplaced'.made k hplace
    omega
  have hwhole : history = (before ++ [.returned (some j) (.packet packet) d]) ++ after := by
    rw [hsplit, List.append_assoc]
    rfl
  have hlater : pushed after k = [] := pushed_after (hwhole ▸ careful_run hrun) hover
  rw [hsplit, pushed_append, hall]
  show returned before k = returned before k ++ pushed after k
  rw [hlater, List.append_nil]

/-- A connection whose last read fails, and which the control worker leaves for another try. -/
def fails (k : ℕ) (packets : ℕ) : List Act :=
  [.read k .eof, .read k (.error (.runtimeError "av_read_frame")), .read k .eof, .perform (.reader k),
    .perform (.reader k), .perform (.reader k), .work {}, .work {}, .work {}, .perform .control, .perform .control,
    .work {}, .work {}] ++ List.replicate packets (.work {}) ++
    [.work {}, .perform .control, .perform .control, .work {}, .work {}, .perform .control, .perform .control, .work {}]

/-- A packet is read and pushed. -/
def pushes (k : ℕ) (packet : Packet) : List Act := [.read k .eof, .read k (.packet packet), .read k .eof]

def takes : List Act := [.call .read, .consume, .consume, .consume, .consume]

def somePacket : Packet := { streamIndex := 0, pts := 0, dts := 0, timeBase := ⟨1, 25⟩ }

/-- The acts of `careful`. -/
def carefully (s : AvInputProxy) (act : Act) : Option (List Event × AvInputProxy) :=
  if s.loses act then none else s.next act

theorem carefully_step {act : Act} (h : s.carefully act = some (events, s')) : careful.step s events s' := by
  rw [carefully] at h
  split at h
  · cases h
  · rename_i hcareful
    exact ⟨act, Bool.not_eq_true _ ▸ hcareful, h⟩

set_option maxRecDepth 4000 in
/-- A failure behind which the queue is empty loses nothing. -/
theorem failure_drains_taken : ∃ history s, careful.Run (start true (-1) 1) history s ∧
    .inputPublished 0 .failed ∈ history ∧ returned (history.take 20) 0 = pushed history 0 ∧
      pushed history 0 = [somePacket] := by
  have hrun := Transition.execute_run (T := careful) (fun _ _ _ _ h => carefully_step h)
    (rfl : Transition.execute carefully (start true (-1) 1)
      (opens { videoStreamIndex := 0 } ++ pushes 0 somePacket ++ takes ++ fails 0 0 ++
        opens { videoStreamIndex := 0 } ++ pushes 1 somePacket ++ takes) = some (_, _))
  have hall := failure_drains (k := 0) ⟨_, _, _, rfl⟩ hrun (by decide)
    (List.take_append_drop 20 _).symm (by decide)
  exact ⟨_, _, hrun, by decide, hall.1, rfl⟩

set_option maxRecDepth 4000 in
/-- A failure is told as soon as it is seen; the control worker then throws away what the consumer has not read. -/
theorem failure_discards : ¬∀ (s₀ s : AvInputProxy) (history before after : List Event) (j k : ℕ) (packet : Packet)
    (d : Option Description), system.init s₀ → system.Run s₀ history s → .stopRecorded ∉ history →
      history = before ++ .returned (some j) (.packet packet) d :: after → k < j →
        .inputPublished k .failed ∈ history → returned before k = pushed history k := by
  intro hall
  have hrun := Transition.execute_run (T := system) (fun _ act _ _ h => ⟨act, h⟩)
    (rfl : Transition.execute next (start true (-1) 1)
      (opens { videoStreamIndex := 0 } ++ pushes 0 somePacket ++ fails 0 1 ++ opens { videoStreamIndex := 0 } ++
        pushes 1 somePacket ++ takes) = some (_, _))
  have hlost := hall _ _ _ _ _ 1 0 somePacket _ ⟨_, _, _, rfl⟩ hrun (by decide)
    (List.take_append_drop 20 _).symm (by decide) (by decide)
  exact absurd hlost (by decide)

end AvInputProxy

end MwStreamer
