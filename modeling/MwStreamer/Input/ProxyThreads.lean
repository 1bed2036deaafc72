import MwStreamer.Input.ProxyStages

/-!
# Where the connections of the input proxy are, whoever moves

The readers, the consumer and whoever is bound to a section leave the control worker where it is.  With its own steps
every step keeps `Placed`, so that it holds in every state that can be reached.
-/

namespace MwStreamer

namespace AvInputProxy

variable {s s' : AvInputProxy} {events : List Event} {thread : Thread} {k : ℕ}

/-! ### Sections -/

/-- A connection a section writes to. -/
theorem InputOk.revise (h : InputOk s k) {input : AvInput} (hinput : s'.inputs k = input) (hmade : s'.made = s.made)
    (hpc : s'.control.pc = s.control.pc) (hreader : s'.readers k = s.readers k)
    (hquiet : s.todo (.reader k) = [] → s'.todo (.reader k) = []) (hqueue : input.queued = (s.inputs k).queued)
    (hpackets : input.packets = (s.inputs k).packets)
    (hcancelled : (s.inputs k).cancelled = true → input.cancelled = true)
    (hclosed : input.queue.closed = true → Closable s' k)
    (hlive : s.readers k ≠ .absent → input.cancelled = false → input.status.state = .opened ∨
      input.status.state = .ended ∨ input.status.state = .failed)
    (hearly : s.control.pc.input? = some k → s.control.pc.early = true →
      input.status.state = .closed ∧ input.queue.closed = false)
    (hlaunching : s.control.pc.input? = some k → s.control.pc.isLaunching = true →
      input.status.state = .opened ∨ ∃ status, .publishInput k status ∈ s'.todo .control)
    (hunclosed : s.control.pc.input? = some k → s.control.pc.leaves = false → s.readers k ≠ .absent →
      input.status.state ≠ .closed)
    (hcancel : .cancel k ∈ s.todo .control → input.cancelled = true ∨ .cancel k ∈ s'.todo .control) :
    InputOk s' k := by
  subst hinput
  constructor
  · rw [hreader, hqueue]
    exact fun habsent => (h.absent habsent).imp_right hquiet
  · exact hclosed
  · rw [hreader, hpackets]
    intro hpresent huncancelled
    refine ⟨(h.live hpresent ?_).1, hlive hpresent huncancelled⟩
    by_contra hwas
    rw [hcancelled (Bool.not_eq_false _ ▸ hwas)] at huncancelled
    cases huncancelled
  · rw [hpc, hpackets]
    exact fun hplace hin => ⟨(h.early hplace hin).1, hearly hplace hin⟩
  · rw [hpc, hreader]
    exact h.unlaunched
  · rw [hpc, hpackets]
    exact h.begins
  · rw [hpc]
    exact hlaunching
  · rw [hpc, hreader]
    exact hunclosed
  · rw [hpc]
    intro hplace hin
    rcases h.joining hplace hin with hwas | howed
    · exact .inl (hcancelled hwas)
    · exact hcancel howed
  · rw [hpc, hreader, hmade]
    intro hlt hgone
    obtain ⟨hover, hidle, hwas⟩ := h.gone hlt hgone
    exact ⟨hover, hquiet hidle, hwas.imp hcancelled id⟩

/-- The control worker stays where it is. -/
theorem Placed.stay (h : Placed s) (hpc : s'.control.pc = s.control.pc) (hin : s'.input = s.input)
    (hmade : s'.made = s.made) (hdone : ∀ k, s.readers k = .done → s'.readers k = .done)
    (habsent : ∀ k, s.readers k = .absent → s'.readers k = .absent)
    (hqueue : ∀ k, s.readers k = .done → (s.inputs k).queued = [] → (s'.inputs k).queued = [])
    (hcancelled : ∀ k, (s.inputs k).cancelled = true → (s'.inputs k).cancelled = true)
    (hfresh : ∀ k, s.made ≤ k → s'.inputs k = {} ∧ s'.readers k = .absent ∧ s'.todo (.reader k) = [])
    (htasks : ∀ t, ∀ task ∈ s'.todo t, task ∈ s.todo t ∨ TaskOk s' t task) (hinputs : ∀ k, InputOk s' k) :
    Placed s' where
  input := by
    rw [hin, hpc]
    exact h.input
  made := by
    rw [hpc, hmade]
    exact h.made
  fresh k hk := hfresh k (hmade ▸ hk)
  tasks t task hmem := by
    rcases htasks t task hmem with hold | hnew
    · exact (h.tasks t task hold).same hmade.ge hpc hdone habsent hqueue hcancelled
    · exact hnew
  inputs := hinputs

/-- A thread takes a section, which writes to one connection at most. -/
theorem Placed.performs (h : Placed s) {touched : Option ℕ} {task : Task} {rest tasks : List Task}
    (htodo : s.todo thread = task :: rest)
    (hhead : ∀ k, touched ≠ some k → (∀ status, task ≠ .publishInput k status) ∧ task ≠ .cancel k)
    (hpc : s'.control = s.control) (hin : s'.input = s.input) (hmade : s'.made = s.made)
    (hreaders : s'.readers = s.readers) (htodo' : s'.todo = Function.update s.todo thread (tasks ++ rest))
    (hlt : ∀ k, touched = some k → k < s.made) (hinputs : ∀ k, touched ≠ some k → s'.inputs k = s.inputs k)
    (hwrites : ∀ k, touched = some k → (s'.inputs k).queued = (s.inputs k).queued ∧
      ((s.inputs k).cancelled = true → (s'.inputs k).cancelled = true) ∧ InputOk s' k)
    (htasks : ∀ task ∈ tasks, TaskOk s' thread task) : Placed s' := by
  have hself : s'.todo thread = tasks ++ rest := by
    rw [htodo', Function.update_self]
  have hothers : ∀ t, t ≠ thread → s'.todo t = s.todo t := fun t ht => by
    rw [htodo', Function.update_of_ne ht]
  have hkeeps : ∀ t x, x ≠ task → x ∈ s.todo t → x ∈ s'.todo t := by
    intro t x hx hmem
    by_cases ht : t = thread
    · subst ht
      rw [htodo] at hmem
      rw [hself]
      exact List.mem_append_right _ ((List.mem_cons.mp hmem).resolve_left hx)
    · rw [hothers t ht]
      exact hmem
  have hquiet : ∀ k, s.todo (.reader k) = [] → s'.todo (.reader k) = [] := by
    intro k hempty
    by_cases ht : .reader k = thread
    · subst ht
      rw [htodo] at hempty
      cases hempty
    · rw [hothers _ ht]
      exact hempty
  refine h.stay (congrArg Control.pc hpc) hin hmade (fun k hk => hreaders ▸ hk) (fun k hk => hreaders ▸ hk)
    (fun k _ hk => ?_) (fun k hk => ?_) (fun k hk => ?_) (fun t x hx => ?_) fun k => ?_
  · by_cases htouched : touched = some k
    · rw [(hwrites k htouched).1]
      exact hk
    · rw [hinputs k htouched]
      exact hk
  · by_cases htouched : touched = some k
    · exact (hwrites k htouched).2.1 hk
    · rw [hinputs k htouched]
      exact hk
  · obtain ⟨hinput, hreader, hempty⟩ := h.fresh k hk
    have huntouched : touched ≠ some k := fun htouched => absurd (hlt k htouched) (not_lt.mpr hk)
    exact ⟨(hinputs k huntouched).trans hinput, (congrFun hreaders k).trans hreader, hquiet k hempty⟩
  · by_cases ht : t = thread
    · subst ht
      rw [hself] at hx
      rcases List.mem_append.mp hx with hnew | hold
      · exact .inr (htasks x hnew)
      · exact .inl (htodo ▸ List.mem_cons_of_mem _ hold)
    · exact .inl (hothers t ht ▸ hx)
  · by_cases htouched : touched = some k
    · exact (hwrites k htouched).2.2
    · exact (h.inputs k).keep hmade (congrArg Control.pc hpc) (hinputs k htouched) (congrFun hreaders k) (hquiet k)
        (fun status => hkeeps _ _ ((hhead k htouched).1 status).symm) (hkeeps _ _ (hhead k htouched).2.symm)

/-- A thread takes a section that writes to no connection. -/
theorem Placed.passes (h : Placed s) {task : Task} {rest tasks : List Task} (htodo : s.todo thread = task :: rest)
    (hhead : ∀ k, (∀ status, task ≠ .publishInput k status) ∧ task ≠ .cancel k) (hpc : s'.control = s.control)
    (hin : s'.input = s.input) (hmade : s'.made = s.made) (hinputs : s'.inputs = s.inputs)
    (hreaders : s'.readers = s.readers) (htodo' : s'.todo = Function.update s.todo thread (tasks ++ rest))
    (htasks : ∀ task ∈ tasks, TaskOk s' thread task) : Placed s' := by
  have hnone : ∀ k, (none : Option ℕ) ≠ some k := by simp
  exact h.performs htodo (fun k _ => hhead k) hpc hin hmade hreaders htodo' (fun k hk => absurd hk (hnone k))
    (fun k _ => congrFun hinputs k) (fun k hk => absurd hk (hnone k)) htasks

/-- A thread takes a section that writes to a connection. -/
theorem Placed.writes (h : Placed s) {task : Task} {rest tasks : List Task} {input : AvInput}
    (htodo : s.todo thread = task :: rest)
    (hhead : ∀ j, k ≠ j → (∀ status, task ≠ .publishInput j status) ∧ task ≠ .cancel j) (hlt : k < s.made)
    (hqueue : input.queued = (s.inputs k).queued)
    (hcancelled : (s.inputs k).cancelled = true → input.cancelled = true)
    (hinput : InputOk ((s.setInput k input).bind thread (tasks ++ rest)) k)
    (htasks : ∀ task ∈ tasks, TaskOk ((s.setInput k input).bind thread (tasks ++ rest)) thread task) :
    Placed ((s.setInput k input).bind thread (tasks ++ rest)) := by
  have hself : ((s.setInput k input).bind thread (tasks ++ rest)).inputs k = input := setInput_self
  refine h.performs htodo (fun j hj => hhead j fun heq => hj (congrArg some heq)) rfl rfl rfl rfl rfl
    (fun j hj => Option.some.inj hj ▸ hlt) (fun j hj => setInput_of_ne fun heq => hj (congrArg some heq.symm))
    (fun j hj => ?_) htasks
  obtain rfl := Option.some.inj hj
  rw [hself]
  exact ⟨hqueue, hcancelled, hinput⟩

theorem Placed.head (h : Placed s) {task : Task} {rest : List Task} (htodo : s.todo thread = task :: rest) :
    TaskOk s thread task :=
  h.tasks thread task (htodo ▸ List.mem_cons_self)

/-- The sections behind the first stay on the list. -/
theorem mem_behind {task : Task} {rest tasks : List Task} (htodo : s.todo thread = task :: rest) {t : Thread} {x : Task}
    (hx : x ≠ task) (hmem : x ∈ s.todo t) : x ∈ (s'.bind thread (tasks ++ rest)).todo t ∨ t ≠ thread := by
  by_cases ht : t = thread
  · subst ht
    rw [htodo] at hmem
    rw [bind_todo_self]
    exact .inl (List.mem_append_right _ ((List.mem_cons.mp hmem).resolve_left hx))
  · exact .inr ht

theorem Placed.stopRecorded (h : Placed s) {rest : List Task} (htodo : s.todo thread = .requestStop :: rest) :
    Placed ({ s with stopping := true }.bind thread (s.input.toList.map Task.cancel ++ rest)) := by
  refine h.passes htodo (fun k => ⟨fun status => by simp, by simp⟩) rfl rfl rfl rfl rfl rfl fun task hmem => ?_
  obtain ⟨k, hk, rfl⟩ := List.mem_map.mp hmem
  have hplace : s.control.pc.input? = some k := by
    rw [← h.input]
    exact Option.mem_toList.mp hk
  have hlast := h.made k hplace
  have hok := h.head htodo
  cases thread with
  | user n =>
    show k < s.made
    omega
  | control => exact hok.elim
  | reader j => exact hok.elim

theorem Placed.cancelled (h : Placed s) {rest : List Task} (htodo : s.todo thread = .cancel k :: rest) :
    Placed ((s.setInput k (s.inputs k).cancel).bind thread
      ((if (s.inputs k).packets then [Task.closeQueue k] else []) ++ rest)) := by
  have hok := h.head htodo
  have hinput := h.inputs k
  have hlt : k < s.made := by
    cases thread with
    | user n => exact hok
    | control =>
      have hlast := h.made k hok.1
      omega
    | reader j => exact hok.elim
  have hreader : ∀ j, thread ≠ .reader j := by
    rintro j rfl
    exact hok
  have hself : ∀ tasks, ((s.setInput k (s.inputs k).cancel).bind thread tasks).inputs k = (s.inputs k).cancel :=
    fun _ => setInput_self
  have hquiet : ∀ {tasks}, s.todo (.reader k) = [] →
      ((s.setInput k (s.inputs k).cancel).bind thread tasks).todo (.reader k) = [] :=
    fun hempty => (bind_todo_of_ne (hreader k).symm).trans hempty
  refine h.writes htodo (fun j hj => ⟨fun status => by simp, by simp [hj]⟩) hlt rfl (fun _ => rfl) ?_
    fun task hmem => ?_
  · refine hinput.revise (hself _) rfl rfl rfl hquiet rfl rfl (fun _ => rfl) (fun hclosed => ?_)
      (fun _ huncancelled => by cases huncancelled) (fun hplace hin => (hinput.early hplace hin).2)
      (fun hplace hin => ?_) hinput.unclosed fun _ => .inl rfl
    · exact (hinput.closed hclosed).mono le_rfl (fun hplace => ⟨hplace, id, id⟩) (fun _ => by rw [hself]; rfl) id id
    · refine (hinput.launching hplace hin).imp id fun ⟨status, hmem⟩ => ⟨status, ?_⟩
      by_cases ht : thread = .control
      · subst ht
        exact (mem_behind htodo (by simp) hmem).resolve_right (by simp)
      · rw [bind_todo_of_ne (Ne.symm ht)]
        exact hmem
  · by_cases hpackets : (s.inputs k).packets = true
    · rw [if_pos hpackets] at hmem
      rw [List.mem_singleton.mp hmem]
      have hclosable : Closable ((s.setInput k (s.inputs k).cancel).bind thread
          ((if (s.inputs k).packets then [Task.closeQueue k] else []) ++ rest)) k := by
        refine ⟨hlt, fun hplace => ?_, .inl (by rw [hself]; rfl)⟩
        cases hearly : s.control.pc.early with
        | false => exact hearly
        | true =>
          rw [(hinput.early hplace hearly).1] at hpackets
          cases hpackets
      cases thread with
      | user n => exact hclosable
      | control => exact hclosable
      | reader j => exact absurd rfl (hreader j)
    · rw [if_neg hpackets] at hmem
      cases hmem

/-- A queue that a thread is bound to close may be closed. -/
theorem Placed.closable (h : Placed s) {rest : List Task} (htodo : s.todo thread = .closeQueue k :: rest) :
    Closable s k := by
  have hok := h.head htodo
  cases thread with
  | user n => exact hok
  | control => exact hok
  | reader j =>
    obtain ⟨rfl, hdone⟩ := hok
    refine ⟨?_, fun hplace => ?_, .inr (.inl hdone)⟩
    · by_contra hge
      obtain ⟨-, habsent, -⟩ := h.fresh k (not_lt.mp hge)
      rw [habsent] at hdone
      cases hdone
    · cases hearly : s.control.pc.early with
      | false => rfl
      | true =>
        have habsent := (h.inputs k).unlaunched hplace (by
          cases hpc : s.control.pc <;> rw [hpc] at hearly <;> first | rfl | cases hearly)
        rw [habsent] at hdone
        cases hdone

theorem Placed.queueClosed (h : Placed s) {rest : List Task} (htodo : s.todo thread = .closeQueue k :: rest) :
    Placed ((s.setInput k (s.inputs k).closeQueue).bind thread rest) := by
  have hclosable := h.closable htodo
  have hinput := h.inputs k
  have hself : ((s.setInput k (s.inputs k).closeQueue).bind thread ([] ++ rest)).inputs k = (s.inputs k).closeQueue :=
    setInput_self
  have hbehind : ∀ x, x ≠ .closeQueue k → x ∈ s.todo .control →
      x ∈ ((s.setInput k (s.inputs k).closeQueue).bind thread ([] ++ rest)).todo .control := by
    intro x hx hmem
    by_cases ht : thread = .control
    · subst ht
      exact (mem_behind htodo hx hmem).resolve_right (by simp)
    · rw [bind_todo_of_ne (Ne.symm ht)]
      exact hmem
  have hquiet : s.todo (.reader k) = [] →
      ((s.setInput k (s.inputs k).closeQueue).bind thread ([] ++ rest)).todo (.reader k) = [] := by
    intro hempty
    by_cases ht : thread = .reader k
    · subst ht
      rw [htodo] at hempty
      cases hempty
    · rw [bind_todo_of_ne (Ne.symm ht)]
      exact hempty
  show Placed ((s.setInput k (s.inputs k).closeQueue).bind thread ([] ++ rest))
  refine h.writes htodo (fun j hj => ⟨fun status => by simp, by simp⟩) hclosable.made rfl id ?_
    fun task hmem => by cases hmem
  refine hinput.revise hself rfl rfl rfl hquiet rfl rfl id (fun _ => ?_) (fun hlive huncancelled => ?_)
    (fun hplace hin => absurd hin (hclosable.not_early hplace)) (fun hplace hin => ?_) hinput.unclosed
    fun hmem => .inr (hbehind _ (by simp) hmem)
  · refine hclosable.mono le_rfl (fun hplace => ⟨hplace, id, id⟩) (fun hcancelled => ?_) id id
    rw [hself]
    exact hcancelled
  · exact (hinput.live hlive huncancelled).2
  · exact (hinput.launching hplace hin).imp id fun ⟨status, hmem⟩ => ⟨status, hbehind _ (by simp) hmem⟩

theorem Pc.early_unlaunched {pc : Pc} (h : pc.early = true) : pc.unlaunched = true := by
  cases pc with
  | rechecking | uncancelling | queueing => rfl
  | _ => exact absurd h Bool.false_ne_true

theorem Pc.launching_unlaunched {pc : Pc} (h : pc.isLaunching = true) : pc.unlaunched = true := by
  cases pc with
  | launching => rfl
  | _ => exact absurd h Bool.false_ne_true

/-- The control worker tells what it does with a connection. -/
theorem Placed.told (h : Placed s) {status : AvInputStatus} {rest : List Task}
    (htodo : s.todo .control = .publishInput k status :: rest) :
    Placed ((s.setInput k ((s.inputs k).publish status)).bind .control
      ((if status.state.closesQueue && (s.inputs k).packets then [Task.closeQueue k] else []) ++
        .inputChanged k status :: rest)) := by
  have htelling : Telling s k status := h.head htodo
  have hinput := h.inputs k
  have hplace : s.control.pc.input? = some k := by
    cases htelling with
    | opening hpc _ | opened hpc _ | broken hpc _ _ | closed hpc _ =>
      rw [hpc]
      rfl
  have hlast := h.made k hplace
  let tasks := (if status.state.closesQueue && (s.inputs k).packets then [Task.closeQueue k] else []) ++
    [Task.inputChanged k status]
  have happend : (if status.state.closesQueue && (s.inputs k).packets then [Task.closeQueue k] else []) ++
      .inputChanged k status :: rest = tasks ++ rest := by
    rw [List.append_assoc]
    rfl
  rw [happend]
  have hself : ((s.setInput k ((s.inputs k).publish status)).bind .control (tasks ++ rest)).inputs k =
      (s.inputs k).publish status := setInput_self
  have hnext : Telling ((s.setInput k ((s.inputs k).publish status)).bind .control (tasks ++ rest)) k status :=
    htelling.same rfl id
  have hlate : s.control.pc.early = false := by
    cases htelling with
    | opening hpc _ | opened hpc _ | broken hpc _ _ | closed hpc _ =>
      rw [hpc]
      rfl
  refine h.writes htodo (fun j hj => ⟨fun status => by simp [hj], by simp⟩) (by omega) rfl id ?_ fun task hmem => ?_
  · refine hinput.revise hself rfl rfl rfl (fun hempty => (bind_todo_of_ne (by simp)).trans hempty) rfl rfl id
      (fun hclosed => ?_) (fun hlive huncancelled => ?_) (fun _ hin => ?_) (fun _ hin => ?_) (fun _ hin hlive => ?_)
      fun hmem => .inr ?_
    · exact (hinput.closed hclosed).mono le_rfl (fun hplace => ⟨hplace, id, id⟩)
        (fun hcancelled => by rw [hself]; exact hcancelled) id id
    · -- a connection with a reader is told of by the control worker only when it is left
      cases htelling with
      | opening hpc _ => exact absurd (hinput.unlaunched hplace (by rw [hpc]; rfl)) hlive
      | opened hpc hstate => exact .inl hstate
      | broken _ habsent _ => exact absurd habsent hlive
      | closed hpc _ =>
        rcases (h.gone hplace (by rw [hpc]; rfl)).2.2 with hcancelled | habsent
        · exact absurd (huncancelled.symm.trans hcancelled) Bool.false_ne_true
        · exact absurd habsent hlive
    · exact absurd (hlate.symm.trans hin) Bool.false_ne_true
    · cases htelling with
      | opened _ hstate => exact .inl hstate
      | opening hpc _ | broken hpc _ _ | closed hpc _ =>
        rw [hpc] at hin
        exact absurd hin Bool.false_ne_true
    · cases htelling with
      | opening hpc hstate =>
        intro hclosed
        exact absurd (hstate.symm.trans hclosed) (by decide)
      | opened hpc hstate =>
        intro hclosed
        exact absurd (hstate.symm.trans hclosed) (by decide)
      | broken _ habsent _ => exact absurd habsent hlive
      | closed hpc _ =>
        rw [hpc] at hin
        exact absurd hin (by simp [Pc.leaves])
    · exact (mem_behind htodo (by simp) hmem).resolve_right (by simp)
  · rcases List.mem_append.mp hmem with hclose | htold
    · split at hclose
      · rename_i hcloses
        rw [List.mem_singleton.mp hclose]
        cases htelling with
        | broken hpc habsent _ =>
          refine ⟨by show k < s.made; omega, fun _ => hlate, .inr (.inr ⟨habsent, fun _ => ?_⟩)⟩
          show s.control.pc.begins = false
          rw [hpc]
          rfl
        | opening _ hstate | opened _ hstate | closed _ hstate =>
          rw [hstate] at hcloses
          exact absurd hcloses (by simp [AvInputState.closesQueue])
      · cases hclose
    · rw [List.mem_singleton.mp htold]
      exact hnext

/-- The reader of a connection tells its end. -/
theorem Placed.finished (h : Placed s) {j : ℕ} {status : AvInputStatus} {rest : List Task}
    (htodo : s.todo (.reader j) = .publishInput k status :: rest) :
    Placed ((s.setInput k ((s.inputs k).publish status)).bind (.reader j)
      ((if status.state.closesQueue && (s.inputs k).packets then [Task.closeQueue k] else []) ++
        .inputChanged k status :: rest)) := by
  obtain ⟨rfl, hfinal⟩ : k = j ∧ Final s k status := h.head htodo
  have hinput := h.inputs k
  have hlt : k < s.made := by
    by_contra hge
    obtain ⟨-, habsent, -⟩ := h.fresh k (not_lt.mp hge)
    rw [hfinal.done] at habsent
    cases habsent
  have hunlaunched : s.control.pc.input? = some k → s.control.pc.unlaunched = true → False := by
    intro hplace hin
    have habsent := hinput.unlaunched hplace hin
    rw [hfinal.done] at habsent
    cases habsent
  let tasks := (if status.state.closesQueue && (s.inputs k).packets then [Task.closeQueue k] else []) ++
    [Task.inputChanged k status]
  have happend : (if status.state.closesQueue && (s.inputs k).packets then [Task.closeQueue k] else []) ++
      .inputChanged k status :: rest = tasks ++ rest := by
    rw [List.append_assoc]
    rfl
  rw [happend]
  have hself : ((s.setInput k ((s.inputs k).publish status)).bind (.reader k) (tasks ++ rest)).inputs k =
      (s.inputs k).publish status := setInput_self
  have hnext : Final ((s.setInput k ((s.inputs k).publish status)).bind (.reader k) (tasks ++ rest)) k status :=
    hfinal.mono id (by rw [hself]; exact id) (by rw [hself]; exact id)
  have hsame : ((s.setInput k ((s.inputs k).publish status)).bind (.reader k) (tasks ++ rest)).todo .control =
      s.todo .control := bind_todo_of_ne (by simp)
  refine h.writes htodo (fun i hi => ⟨fun status => by simp [hi], by simp⟩) hlt rfl id ?_ fun task hmem => ?_
  · refine hinput.revise hself rfl rfl rfl (fun hempty => ?_) rfl rfl id (fun hclosed => ?_)
      (fun hlive huncancelled => ?_) (fun hplace hin => (hunlaunched hplace (Pc.early_unlaunched hin)).elim)
      (fun hplace hin => (hunlaunched hplace (Pc.launching_unlaunched hin)).elim) (fun _ _ _ hclosed => ?_)
      fun hmem => .inr (hsame ▸ hmem)
    · rw [htodo] at hempty
      cases hempty
    · exact (hinput.closed hclosed).mono le_rfl (fun hplace => ⟨hplace, id, id⟩)
        (fun hcancelled => by rw [hself]; exact hcancelled) id id
    · rcases hfinal.state with ⟨hended, -⟩ | hfailed | ⟨-, hcancelled⟩
      · exact .inr (.inl hended)
      · exact .inr (.inr hfailed)
      · exact absurd (huncancelled.symm.trans hcancelled) Bool.false_ne_true
    · have hclosed' : status.state = .closed := hclosed
      rcases hfinal.state with ⟨hstate, -⟩ | hstate | ⟨hstate, -⟩
      all_goals exact absurd (hstate.symm.trans hclosed') (by decide)
  · rcases List.mem_append.mp hmem with hclose | htold
    · split at hclose
      · rw [List.mem_singleton.mp hclose]
        exact ⟨rfl, hfinal.done⟩
      · cases hclose
    · rw [List.mem_singleton.mp htold]
      exact ⟨rfl, hnext⟩

theorem Placed.performed (h : Placed s) (hstep : Performed s thread events s') : Placed s' := by
  cases hstep with
  | stopRecorded htodo => exact h.stopRecorded htodo
  | cancelled htodo => exact h.cancelled htodo
  | queueClosed htodo => exact h.queueClosed htodo
  | inputPublished htodo =>
    have hok := h.head htodo
    cases thread with
    | control => exact h.told htodo
    | reader j => exact h.finished htodo
    | user n => exact hok.elim
  | @foreign k status rest htodo hother =>
    show Placed (s.bind thread ([] ++ rest))
    exact h.passes htodo (fun k => ⟨fun status => by simp, by simp⟩) rfl rfl rfl rfl rfl rfl fun task hmem => by
      cases hmem
  | @inputChanged k status rest htodo hin =>
    refine h.passes htodo (fun k => ⟨fun status => by simp, by simp⟩) rfl rfl rfl rfl rfl rfl fun task hmem => ?_
    split at hmem
    · rename_i hstops
      rw [Bool.and_eq_true, beq_iff_eq] at hstops
      rw [List.mem_singleton.mp hmem]
      have hok := h.head htodo
      have hplace : s.control.pc.input? = some k := by
        rw [← h.input]
        exact hin
      cases thread with
      | user n => exact hok.elim
      | control =>
        -- only the beginning of `Open` tells that it opens
        have htelling : Telling s k status := hok
        refine ⟨hplace, .inr ?_⟩
        cases htelling with
        | opening hpc _ => exact hpc
        | opened _ hstate => exact absurd (hstate.symm.trans hstops.2) (by decide)
        | closed _ hstate => exact absurd (hstate.symm.trans hstops.2) (by decide)
        | broken _ _ hbreaks =>
          rw [breaks, hstops.2] at hbreaks
          exact absurd hbreaks (by decide)
      | reader j =>
        obtain ⟨-, hfinal⟩ : k = j ∧ Final s k status := hok
        rcases hfinal.state with ⟨hstate, -⟩ | hstate | ⟨hstate, -⟩
        all_goals exact absurd (hstate.symm.trans hstops.2) (by decide)
    · cases hmem
  | @published state retries delay error rest htodo =>
    show Placed ({ s with
      status := { s.status with
        state := state, retryCount := retries, retryDelay := delay, error := error } }.bind thread ([] ++ rest))
    exact h.passes htodo (fun k => ⟨fun status => by simp, by simp⟩) rfl rfl rfl rfl rfl rfl fun task hmem => by
      cases hmem
  | @announced rest htodo =>
    show Placed ({ s with readStateChanged := true }.bind thread ([] ++ rest))
    exact h.passes htodo (fun k => ⟨fun status => by simp, by simp⟩) rfl rfl rfl rfl rfl rfl fun task hmem => by
      cases hmem

/-! ### The readers -/

theorem Pc.begins_unlaunched {pc : Pc} (h : pc.begins = true) : pc.unlaunched = true := by
  cases pc with
  | opening | probing | describing | launching => rfl
  | _ => exact absurd h Bool.false_ne_true

/-- A reader that runs goes on. -/
theorem Placed.reads (h : Placed s) (hrunning : s.readers k ≠ .absent ∧ s.readers k ≠ .done)
    (hcontrol : s'.control = s.control) (hin : s'.input = s.input) (hmade : s'.made = s.made)
    (hinputs : ∀ j, j ≠ k → s'.inputs j = s.inputs j) (hreaders : ∀ j, j ≠ k → s'.readers j = s.readers j)
    (htodo : ∀ t, t ≠ .reader k → s'.todo t = s.todo t) (hpresent : s'.readers k ≠ .absent)
    (hsame : (s'.inputs k).status = (s.inputs k).status ∧ (s'.inputs k).cancelled = (s.inputs k).cancelled ∧
      (s'.inputs k).packets = (s.inputs k).packets ∧ (s'.inputs k).queue.closed = (s.inputs k).queue.closed)
    (htasks : ∀ task ∈ s'.todo (.reader k), TaskOk s' (.reader k) task) : Placed s' := by
  obtain ⟨hstatus, hcancelled, hpackets, hclosed⟩ := hsame
  have hpc : s'.control.pc = s.control.pc := congrArg Control.pc hcontrol
  have hlt : k < s.made := by
    by_contra hge
    exact hrunning.1 (h.fresh k (not_lt.mp hge)).2.1
  have hlaunched : s.control.pc.input? = some k → s.control.pc.unlaunched ≠ true := fun hplace hin =>
    hrunning.1 ((h.inputs k).unlaunched hplace hin)
  refine h.stay hpc hin hmade (fun j hj => ?_) (fun j hj => ?_) (fun j hj hq => ?_) (fun j hj => ?_) (fun j hj => ?_)
    (fun t task hmem => ?_) fun j => ?_
  · by_cases hjk : j = k
    · subst hjk
      exact absurd hj hrunning.2
    · exact hreaders j hjk ▸ hj
  · by_cases hjk : j = k
    · subst hjk
      exact absurd hj hrunning.1
    · exact hreaders j hjk ▸ hj
  · by_cases hjk : j = k
    · subst hjk
      exact absurd hj hrunning.2
    · exact hinputs j hjk ▸ hq
  · by_cases hjk : j = k
    · subst hjk
      exact hcancelled ▸ hj
    · exact hinputs j hjk ▸ hj
  · have hjk : j ≠ k := by omega
    rw [hinputs j hjk, hreaders j hjk, htodo (.reader j) (by simp [hjk])]
    exact h.fresh j hj
  · by_cases ht : t = .reader k
    · subst ht
      exact .inr (htasks task hmem)
    · exact .inl (htodo t ht ▸ hmem)
  · by_cases hjk : j = k
    · subst hjk
      have hok := h.inputs j
      constructor
      · exact fun habsent => absurd habsent hpresent
      · intro hclose
        have hclosable := hok.closed (hclosed ▸ hclose)
        refine ⟨hmade ▸ hclosable.made, hpc ▸ hclosable.late, .inl ?_⟩
        rcases hclosable.ceased with hover | hover | ⟨hover, -⟩
        · exact hcancelled ▸ hover
        · exact absurd hover hrunning.2
        · exact absurd hover hrunning.1
      · rw [hcancelled, hpackets, hstatus]
        exact fun _ => hok.live hrunning.1
      · rw [hpc]
        exact fun hplace hin => absurd (Pc.early_unlaunched hin) (hlaunched hplace)
      · rw [hpc]
        exact fun hplace hin => absurd hin (hlaunched hplace)
      · rw [hpc]
        exact fun hplace hin => absurd (Pc.begins_unlaunched hin) (hlaunched hplace)
      · rw [hpc]
        exact fun hplace hin => absurd (Pc.launching_unlaunched hin) (hlaunched hplace)
      · rw [hpc, hstatus]
        exact fun hplace hin _ => hok.unclosed hplace hin hrunning.1
      · rw [hpc, hcancelled, htodo .control (by simp)]
        exact hok.joining
      · rw [hpc]
        intro _ hgone
        rcases (hok.gone hlt hgone).1 with hover | hover
        · exact absurd hover hrunning.1
        · exact absurd hover hrunning.2
    · exact (h.inputs j).keep hmade hpc (hinputs j hjk) (hreaders j hjk)
        (fun hempty => (htodo (.reader j) (by simp [hjk])).trans hempty)
        (fun _ hmem => by rw [htodo .control (by simp)]; exact hmem)
        (fun hmem => by rw [htodo .control (by simp)]; exact hmem)

/-- A reader goes on with what it has read. -/
theorem Placed.setReader (h : Placed s) {reader : Reader} (hrunning : s.readers k ≠ .absent ∧ s.readers k ≠ .done)
    (hquiet : s.todo (.reader k) = []) (hpresent : reader ≠ .absent) : Placed (s.setReader k reader) := by
  refine h.reads hrunning rfl rfl rfl (fun _ _ => rfl) (fun j hj => setReader_of_ne hj) (fun _ _ => rfl)
    (by rw [setReader_self]; exact hpresent) ⟨rfl, rfl, rfl, rfl⟩ fun task hmem => ?_
  rw [show (s.setReader k reader).todo (.reader k) = [] from hquiet] at hmem
  cases hmem

theorem Placed.readerEnds (h : Placed s) {status : AvInputStatus}
    (hrunning : s.readers k ≠ .absent ∧ s.readers k ≠ .done)
    (hstate : (status.state = .ended ∧ (s.inputs k).queued = []) ∨ status.state = .failed ∨
      (status.state = .cancelled ∧ (s.inputs k).cancelled = true)) : Placed (s.readerEnds k status) := by
  have hself : (s.readerEnds k status).readers k = .done := setReader_self
  refine h.reads hrunning rfl rfl rfl (fun _ _ => rfl) (fun j hj => setReader_of_ne hj)
    (fun t ht => bind_todo_of_ne ht) (by rw [hself]; simp) ⟨rfl, rfl, rfl, rfl⟩ fun task hmem => ?_
  rw [AvInputProxy.readerEnds, bind_todo_self] at hmem
  rw [List.mem_singleton.mp hmem]
  exact ⟨rfl, hself, hstate⟩

theorem Placed.fetched (h : Placed s) (hquiet : s.todo (.reader k) = []) (hstep : Fetched s k events s') :
    Placed s' := by
  have hpresent : ∀ {reader : Reader}, s.readers k = reader → reader ≠ .absent → reader ≠ .done →
      s.readers k ≠ .absent ∧ s.readers k ≠ .done := by
    rintro reader rfl habsent hdone
    exact ⟨habsent, hdone⟩
  cases hstep with
  | cancelled hreader hcancelled =>
    refine h.readerEnds ?_ (.inr (.inr ⟨rfl, hcancelled⟩))
    rcases hreader with hreader | hreader | hreader <;> exact hpresent hreader (by simp) (by simp)
  | checked hreader => exact h.setReader (hpresent hreader (by simp) (by simp)) hquiet (by simp)
  | passed hreader => exact h.setReader (hpresent hreader (by simp) (by simp)) hquiet (by simp)
  | packet hreader => exact h.setReader (hpresent hreader (by simp) (by simp)) hquiet (by simp)
  | eof hreader => exact h.setReader (hpresent hreader (by simp) (by simp)) hquiet (by simp)
  | error hreader e => exact h.setReader (hpresent hreader (by simp) (by simp)) hquiet (by simp)
  | drained hreader hqueue => exact h.readerEnds (hpresent hreader (by simp) (by simp)) (.inl ⟨rfl, hqueue⟩)
  | @pushed packet hreader hopen =>
    refine h.reads (hpresent hreader (by simp) (by simp)) rfl rfl rfl (fun j hj => setInput_of_ne hj)
      (fun j hj => setReader_of_ne hj) (fun _ _ => rfl) (by rw [setReader_self]; simp) ?_ fun task hmem => ?_
    · have hself : ∀ input reader, ((s.setInput k input).setReader k reader).inputs k = input := fun _ _ =>
        setInput_self
      rw [hself]
      exact ⟨rfl, rfl, rfl, rfl⟩
    · rw [show ((s.setInput k _).setReader k .checking).todo (.reader k) = [] from hquiet] at hmem
      cases hmem
  | refused hreader hclosed =>
    -- the queue of a connection whose reader runs is closed only after a cancellation
    have hrunning := hpresent hreader (by simp) (by simp)
    refine h.readerEnds hrunning (.inr (.inr ⟨rfl, ?_⟩))
    rcases ((h.inputs k).closed hclosed).ceased with hover | hover | ⟨hover, -⟩
    · exact hover
    · exact absurd hover hrunning.2
    · exact absurd hover hrunning.1
  | failed hreader =>
    refine h.readerEnds (hpresent hreader (by simp) (by simp)) ?_
    rw [AvInput.failure]
    split
    · rename_i hcancelled
      exact .inr (.inr ⟨rfl, hcancelled⟩)
    · exact .inr (.inl rfl)

/-! ### The consumer and the users -/

/-- A step that touches no connection and no thread's sections. -/
theorem Placed.frame (h : Placed s) (hcontrol : s'.control = s.control) (hin : s'.input = s.input)
    (hmade : s'.made = s.made) (hinputs : s'.inputs = s.inputs) (hreaders : s'.readers = s.readers)
    (htodo : s'.todo = s.todo) : Placed s' := by
  have hpc : s'.control.pc = s.control.pc := congrArg Control.pc hcontrol
  refine h.stay hpc hin hmade (fun _ hj => hreaders ▸ hj) (fun _ hj => hreaders ▸ hj) (fun _ _ hj => hinputs ▸ hj)
    (fun _ hj => hinputs ▸ hj) (fun j hj => ?_) (fun _ _ hmem => .inl (htodo ▸ hmem)) fun j => ?_
  · rw [hinputs, hreaders, htodo]
    exact h.fresh j hj
  · exact (h.inputs j).keep hmade hpc (congrFun hinputs j) (congrFun hreaders j) (fun hempty => htodo ▸ hempty)
      (fun _ hmem => htodo ▸ hmem) (fun hmem => htodo ▸ hmem)

theorem Placed.popped (h : Placed s) {consumer : Consumer} :
    Placed { s.setInput k { s.inputs k with
      queue := { (s.inputs k).queue with queue := (s.inputs k).queued.tail } } with consumer := consumer } := by
  let popped : AvInput := { s.inputs k with queue := { (s.inputs k).queue with queue := (s.inputs k).queued.tail } }
  have hself : ({ s.setInput k popped with consumer := consumer } : AvInputProxy).inputs k = popped := setInput_self
  have hothers : ∀ j, j ≠ k →
      ({ s.setInput k popped with consumer := consumer } : AvInputProxy).inputs j = s.inputs j :=
    fun j hj => setInput_of_ne hj
  have hempty : (s.inputs k).queued = [] → popped.queued = [] := by
    intro hnil
    show (s.inputs k).queued.tail = []
    rw [hnil]
    rfl
  refine h.stay rfl rfl rfl (fun _ hj => hj) (fun _ hj => hj) (fun j _ hj => ?_) (fun j hj => ?_) (fun j hj => ?_)
    (fun _ _ hmem => .inl hmem) fun j => ?_
  · by_cases hjk : j = k
    · subst hjk
      rw [hself]
      exact hempty hj
    · rw [hothers j hjk]
      exact hj
  · by_cases hjk : j = k
    · subst hjk
      rw [hself]
      exact hj
    · rw [hothers j hjk]
      exact hj
  · obtain ⟨hinput, hreader, hquiet⟩ := h.fresh j hj
    refine ⟨?_, hreader, hquiet⟩
    by_cases hjk : j = k
    · subst hjk
      rw [hself]
      show ({ s.inputs j with queue := { (s.inputs j).queue with queue := (s.inputs j).queued.tail } } : AvInput) = {}
      rw [hinput]
      rfl
    · rw [hothers j hjk]
      exact hinput
  · by_cases hjk : j = k
    · subst hjk
      have hok := h.inputs j
      constructor
      all_goals try rw [hself]
      · exact fun habsent => (hok.absent habsent).imp_left hempty
      · intro hclosed
        exact (hok.closed hclosed).mono le_rfl (fun hplace => ⟨hplace, id, id⟩) (by rw [hself]; exact id) id id
      · exact hok.live
      · exact hok.early
      · exact hok.unlaunched
      · exact hok.begins
      · exact hok.launching
      · exact hok.unclosed
      · exact hok.joining
      · exact hok.gone
    · exact (h.inputs j).keep rfl rfl (hothers j hjk) rfl id (fun _ hmem => hmem) id

theorem Placed.consumed (h : Placed s) (hstep : Consumed s events s') : Placed s' := by
  cases hstep with
  | popped _ _ => exact h.popped
  | _ => exact h.frame rfl rfl rfl rfl rfl rfl

theorem Placed.requested (h : Placed s) (n : ℕ) : Placed (s.bind (.user n) [.requestStop]) := by
  have hothers : ∀ t, t ≠ .user n → (s.bind (.user n) [.requestStop]).todo t = s.todo t := fun t ht =>
    bind_todo_of_ne ht
  refine h.stay rfl rfl rfl (fun _ hj => hj) (fun _ hj => hj) (fun _ _ hj => hj) (fun _ hj => hj) (fun j hj => ?_)
    (fun t task hmem => ?_) fun j => ?_
  · rw [hothers _ (by simp)]
    exact h.fresh j hj
  · by_cases ht : t = .user n
    · subst ht
      rw [bind_todo_self] at hmem
      rw [List.mem_singleton.mp hmem]
      exact .inr trivial
    · exact .inl (hothers t ht ▸ hmem)
  · exact (h.inputs j).keep rfl rfl rfl rfl (fun hempty => (hothers _ (by simp)).trans hempty)
      (fun _ hmem => by rw [hothers _ (by simp)]; exact hmem) (fun hmem => by rw [hothers _ (by simp)]; exact hmem)

/-! ### Every step -/

theorem Placed.step (h : Placed s) (hstep : Stepped s events s') : Placed s' := by
  cases hstep with
  | requested hfree => exact h.requested _
  | called mode hidle => exact h.frame rfl rfl rfl rfl rfl rfl
  | performed hperformed => exact h.performed hperformed
  | worked htodo hworked => exact h.worked htodo hworked
  | fetched htodo hfetched => exact h.fetched htodo hfetched
  | consumed hconsumed => exact h.consumed hconsumed

theorem Placed.start (loop : Bool) (maxRetries : ℤ) (capacity : ℕ) :
    Placed (AvInputProxy.start loop maxRetries capacity) where
  input := rfl
  made _ hin := by cases hin
  fresh _ _ := ⟨rfl, rfl, rfl⟩
  tasks _ _ hmem := by cases hmem
  inputs k := .of_absent rfl rfl rfl rfl (fun hclosed => by cases hclosed) (fun hin => by cases hin)
    (fun hin => by cases hin) (fun hin => by cases hin) rfl

/-- **Where the connections are.** -/
theorem placed (hs : system.Reachable s) : Placed s := by
  induction hs with
  | init hinit =>
    obtain ⟨loop, maxRetries, capacity, rfl⟩ := hinit
    exact .start loop maxRetries capacity
  | step _ hstep ih =>
    obtain ⟨act, hact⟩ := hstep
    exact ih.step (stepped hact)

end AvInputProxy

end MwStreamer
