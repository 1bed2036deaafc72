import MwStreamer.Input.ProxySteps

/-!
# Where the connections of the input proxy are

Of all connections the control worker is at one, whose number is the last.  `InputOk` says what is true of a
connection when the control worker is before it, at it or past it, `TaskOk` what a thread that is bound to a section
may rely on.  Both hold in every state that can be reached.
-/

namespace MwStreamer

namespace AvInputProxy

/-! ### The places of the control worker -/

/-- The connection the control worker is at. -/
def Pc.input? : Pc → Option ℕ
  | .checking | .creating | .deciding _ | .delaying | .done => none
  | .rechecking k | .uncancelling k | .queueing k | .opening k | .probing k | .describing k _ | .launching k
  | .giving k _ | .settling k | .connecting k | .offering k | .waiting k | .retiring k _ | .closing k _
  | .joining k _ | .detaching k _ | .discarding k _ | .releasing k _ => some k

/-- The connection has no queue yet. -/
def Pc.early : Pc → Bool
  | .rechecking _ | .uncancelling _ | .queueing _ => true
  | _ => false

/-- The connection has a queue, and its reader may be started. -/
def Pc.begins : Pc → Bool
  | .opening _ | .probing _ | .describing _ _ | .launching _ => true
  | _ => false

/-- The connection has no reader yet. -/
def Pc.unlaunched : Pc → Bool
  | .giving _ _ => true
  | pc => pc.early || pc.begins

/-- The reader of the connection has been joined. -/
def Pc.leaves : Pc → Bool
  | .detaching _ _ | .discarding _ _ | .releasing _ _ => true
  | _ => false

def Pc.isJoining : Pc → Bool
  | .joining _ _ => true
  | _ => false

def Pc.isLaunching : Pc → Bool
  | .launching _ => true
  | _ => false

/-- The next place promises no more of the connection than this one. -/
def Pc.leads (pc next : Pc) : Bool :=
  (!next.early || pc.early) && (!next.unlaunched || pc.unlaunched) && (!next.begins || pc.begins) &&
    next.leaves == pc.leaves && !next.isLaunching

/-! ### What is true of a connection -/

/-- The queue of the connection may be closed: it is cancelled, or its reader has ended, or it will have none. -/
structure Closable (s : AvInputProxy) (k : ℕ) : Prop where
  made : k < s.made
  late : s.control.pc.input? = some k → s.control.pc.early = false
  ceased : (s.inputs k).cancelled = true ∨ s.readers k = .done ∨
    (s.readers k = .absent ∧ (s.control.pc.input? = some k → s.control.pc.begins = false))

/-- What the reader of a connection tells at its end. -/
structure Final (s : AvInputProxy) (k : ℕ) (status : AvInputStatus) : Prop where
  done : s.readers k = .done
  state : (status.state = .ended ∧ (s.inputs k).queued = []) ∨ status.state = .failed ∨
    (status.state = .cancelled ∧ (s.inputs k).cancelled = true)

/-- What the control worker tells of a connection, and where. -/
inductive Telling (s : AvInputProxy) (k : ℕ) (status : AvInputStatus) : Prop where
  | opening (hpc : s.control.pc = .opening k) (hstate : status.state = .opening) : Telling s k status
  | opened (hpc : s.control.pc = .launching k) (hstate : status.state = .opened) : Telling s k status
  | broken {terminal : AvInputStatus} (hpc : s.control.pc = .retiring k terminal) (habsent : s.readers k = .absent)
      (hbreaks : breaks status = true) : Telling s k status
  | closed {terminal : AvInputStatus} (hpc : s.control.pc = .releasing k terminal) (hstate : status.state = .closed) :
      Telling s k status

/-- What a thread that is bound to a section may rely on. -/
def TaskOk (s : AvInputProxy) : Thread → Task → Prop
  | .user _, .requestStop => True
  | .user _, .cancel k => k < s.made
  | .user _, .closeQueue k => s.Closable k
  | .control, .cancel k => s.control.pc.input? = some k ∧ (s.control.pc.isJoining = true ∨ s.control.pc = .opening k)
  | .control, .closeQueue k => s.Closable k
  | .control, .publishInput k status | .control, .inputChanged k status => Telling s k status
  | .control, .publish _ _ _ _ | .control, .announce => True
  | .reader j, .publishInput k status | .reader j, .inputChanged k status => k = j ∧ Final s k status
  | .reader j, .closeQueue k => k = j ∧ s.readers k = .done
  | _, _ => False

structure InputOk (s : AvInputProxy) (k : ℕ) : Prop where
  absent : s.readers k = .absent → (s.inputs k).queued = [] ∧ s.todo (.reader k) = []
  closed : (s.inputs k).queue.closed = true → s.Closable k
  live : s.readers k ≠ .absent → (s.inputs k).cancelled = false → (s.inputs k).packets = true ∧
    ((s.inputs k).status.state = .opened ∨ (s.inputs k).status.state = .ended ∨
      (s.inputs k).status.state = .failed)
  early : s.control.pc.input? = some k → s.control.pc.early = true → (s.inputs k).packets = false ∧
    (s.inputs k).status.state = .closed ∧ (s.inputs k).queue.closed = false
  unlaunched : s.control.pc.input? = some k → s.control.pc.unlaunched = true → s.readers k = .absent
  begins : s.control.pc.input? = some k → s.control.pc.begins = true → (s.inputs k).packets = true
  launching : s.control.pc.input? = some k → s.control.pc.isLaunching = true →
    (s.inputs k).status.state = .opened ∨ ∃ status, .publishInput k status ∈ s.todo .control
  unclosed : s.control.pc.input? = some k → s.control.pc.leaves = false → s.readers k ≠ .absent →
    (s.inputs k).status.state ≠ .closed
  joining : s.control.pc.input? = some k → s.control.pc.isJoining = true →
    (s.inputs k).cancelled = true ∨ .cancel k ∈ s.todo .control
  gone : k < s.made → (s.control.pc.input? = some k → s.control.pc.leaves = true) →
    (s.readers k = .absent ∨ s.readers k = .done) ∧ s.todo (.reader k) = [] ∧
      ((s.inputs k).cancelled = true ∨ s.readers k = .absent)

structure Placed (s : AvInputProxy) : Prop where
  input : s.input = s.control.pc.input?
  made : ∀ k, s.control.pc.input? = some k → k + 1 = s.made
  fresh : ∀ k, s.made ≤ k → s.inputs k = {} ∧ s.readers k = .absent ∧ s.todo (.reader k) = []
  tasks : ∀ t, ∀ task ∈ s.todo t, TaskOk s t task
  inputs : ∀ k, InputOk s k

variable {s s' : AvInputProxy} {events : List Event} {thread : Thread} {k : ℕ}

/-! ### Frames -/

theorem bind_todo_self {tasks : List Task} : (s.bind thread tasks).todo thread = tasks := Function.update_self _ _ _

theorem bind_todo_of_ne {other : Thread} {tasks : List Task} (h : other ≠ thread) :
    (s.bind thread tasks).todo other = s.todo other := Function.update_of_ne h _ _

theorem setInput_self {input : AvInput} : (s.setInput k input).inputs k = input := Function.update_self _ _ _

theorem setInput_of_ne {input : AvInput} {j : ℕ} (h : j ≠ k) : (s.setInput k input).inputs j = s.inputs j :=
  Function.update_of_ne h _ _

/-- A write to one connection that keeps `P` there keeps it everywhere. -/
theorem setInput_keeps {P : AvInput → Prop} {j : ℕ} {input : AvInput} (hP : P (s.inputs j) → P input) (k : ℕ)
    (hk : P (s.inputs k)) : P ((s.setInput j input).inputs k) := by
  by_cases hkj : k = j
  · subst hkj
    rw [setInput_self]
    exact hP hk
  · rw [setInput_of_ne hkj]
    exact hk

theorem setInput_same {α : Type} (f : AvInput → α) {j : ℕ} {input : AvInput} (h : f input = f (s.inputs j)) (k : ℕ) :
    f ((s.setInput j input).inputs k) = f (s.inputs k) := by
  by_cases hkj : k = j
  · subst hkj
    rw [setInput_self]
    exact h
  · rw [setInput_of_ne hkj]

theorem setReader_self {reader : Reader} : (s.setReader k reader).readers k = reader := Function.update_self _ _ _

theorem setReader_of_ne {reader : Reader} {j : ℕ} (h : j ≠ k) : (s.setReader k reader).readers j = s.readers j :=
  Function.update_of_ne h _ _

/-- A connection that may be closed stays so. -/
theorem Closable.mono (h : Closable s k) (hmade : s.made ≤ s'.made)
    (hpc : s'.control.pc.input? = some k → s.control.pc.input? = some k ∧
      (s'.control.pc.early = true → s.control.pc.early = true) ∧
      (s'.control.pc.begins = true → s.control.pc.begins = true))
    (hcancelled : (s.inputs k).cancelled = true → (s'.inputs k).cancelled = true)
    (hdone : s.readers k = .done → s'.readers k = .done) (habsent : s.readers k = .absent → s'.readers k = .absent) :
    Closable s' k where
  made := Nat.lt_of_lt_of_le h.made hmade
  late hinput := by
    obtain ⟨hinput', hearly, -⟩ := hpc hinput
    have hlate := h.late hinput'
    cases hcontra : s'.control.pc.early with
    | false => rfl
    | true => exact absurd (hlate.symm.trans (hearly hcontra)) (by decide)
  ceased := by
    rcases h.ceased with hover | hover | ⟨hover, hbegins⟩
    · exact .inl (hcancelled hover)
    · exact .inr (.inl (hdone hover))
    · refine .inr (.inr ⟨habsent hover, fun hinput => ?_⟩)
      obtain ⟨hinput', -, hbegins'⟩ := hpc hinput
      have hnot := hbegins hinput'
      cases hcontra : s'.control.pc.begins with
      | false => rfl
      | true => exact absurd (hnot.symm.trans (hbegins' hcontra)) (by decide)

theorem Final.mono {status : AvInputStatus} (h : Final s k status) (hdone : s.readers k = .done → s'.readers k = .done)
    (hqueue : (s.inputs k).queued = [] → (s'.inputs k).queued = [])
    (hcancelled : (s.inputs k).cancelled = true → (s'.inputs k).cancelled = true) : Final s' k status where
  done := hdone h.done
  state := h.state.imp (And.imp_right hqueue) (Or.imp_right (And.imp_right hcancelled))

/-- What a user's or a reader's sections rely on stays true. -/
theorem TaskOk.mono {task : Task} (h : TaskOk s thread task) (hcontrol : thread ≠ .control) (hmade : s.made ≤ s'.made)
    (hclosable : ∀ k, Closable s k → Closable s' k) (hdone : ∀ k, s.readers k = .done → s'.readers k = .done)
    (hqueue : ∀ k, s.readers k = .done → (s.inputs k).queued = [] → (s'.inputs k).queued = [])
    (hcancelled : ∀ k, s.readers k = .done → (s.inputs k).cancelled = true → (s'.inputs k).cancelled = true) :
    TaskOk s' thread task := by
  cases thread with
  | control => exact absurd rfl hcontrol
  | user n =>
    cases task with
    | requestStop => trivial
    | cancel j => exact Nat.lt_of_lt_of_le h hmade
    | closeQueue j => exact hclosable j h
    | _ => exact h.elim
  | reader j =>
    cases task with
    | closeQueue i => exact ⟨h.1, hdone i h.2⟩
    | publishInput i status => exact ⟨h.1, h.2.mono (hdone i) (hqueue i h.2.done) (hcancelled i h.2.done)⟩
    | inputChanged i status => exact ⟨h.1, h.2.mono (hdone i) (hqueue i h.2.done) (hcancelled i h.2.done)⟩
    | _ => exact h.elim

theorem Telling.same {status : AvInputStatus} (h : Telling s k status) (hpc : s'.control.pc = s.control.pc)
    (habsent : s.readers k = .absent → s'.readers k = .absent) : Telling s' k status := by
  cases h with
  | opening hplace hstate => exact .opening (hpc.trans hplace) hstate
  | opened hplace hstate => exact .opened (hpc.trans hplace) hstate
  | broken hplace hnone hbreaks => exact .broken (hpc.trans hplace) (habsent hnone) hbreaks
  | closed hplace hstate => exact .closed (hpc.trans hplace) hstate

/-- What any section relies on stays true where the control worker stays where it is. -/
theorem TaskOk.same {task : Task} (h : TaskOk s thread task) (hmade : s.made ≤ s'.made)
    (hpc : s'.control.pc = s.control.pc) (hdone : ∀ k, s.readers k = .done → s'.readers k = .done)
    (habsent : ∀ k, s.readers k = .absent → s'.readers k = .absent)
    (hqueue : ∀ k, s.readers k = .done → (s.inputs k).queued = [] → (s'.inputs k).queued = [])
    (hcancelled : ∀ k, (s.inputs k).cancelled = true → (s'.inputs k).cancelled = true) : TaskOk s' thread task := by
  have hclosable : ∀ k, Closable s k → Closable s' k := fun k hk =>
    hk.mono hmade (fun hinput => ⟨hpc ▸ hinput, fun h => hpc ▸ h, fun h => hpc ▸ h⟩) (hcancelled k) (hdone k)
      (habsent k)
  by_cases hthread : thread = .control
  · subst hthread
    cases task with
    | cancel j =>
      show s'.control.pc.input? = some j ∧ (s'.control.pc.isJoining = true ∨ s'.control.pc = .opening j)
      rw [hpc]
      exact h
    | closeQueue j => exact hclosable j h
    | publishInput j status => exact Telling.same h hpc (habsent j)
    | inputChanged j status => exact Telling.same h hpc (habsent j)
    | publish _ _ _ _ => trivial
    | announce => trivial
    | requestStop => exact h.elim
  · exact h.mono hthread hmade hclosable hdone hqueue fun k _ => hcancelled k

/-- A connection nobody touches while the control worker stays where it is. -/
theorem InputOk.keep (h : InputOk s k) (hmade : s'.made = s.made) (hpc : s'.control.pc = s.control.pc)
    (hinput : s'.inputs k = s.inputs k) (hreader : s'.readers k = s.readers k)
    (htodo : s.todo (.reader k) = [] → s'.todo (.reader k) = [])
    (htold : ∀ status, .publishInput k status ∈ s.todo .control → .publishInput k status ∈ s'.todo .control)
    (hcancel : .cancel k ∈ s.todo .control → .cancel k ∈ s'.todo .control) : InputOk s' k := by
  have hclosable : s.Closable k → s'.Closable k := fun hk =>
    hk.mono hmade.ge (fun hin => ⟨hpc ▸ hin, fun h => hpc ▸ h, fun h => hpc ▸ h⟩) (fun h => hinput ▸ h)
      (fun h => hreader ▸ h) (fun h => hreader ▸ h)
  constructor
  · rw [hinput, hreader]
    intro habsent
    obtain ⟨hqueue, hquiet⟩ := h.absent habsent
    exact ⟨hqueue, htodo hquiet⟩
  · rw [hinput]
    exact fun hclosed => hclosable (h.closed hclosed)
  · rw [hinput, hreader]
    exact h.live
  · rw [hinput, hpc]
    exact h.early
  · rw [hreader, hpc]
    exact h.unlaunched
  · rw [hinput, hpc]
    exact h.begins
  · rw [hinput, hpc]
    intro hin hlaunching
    exact (h.launching hin hlaunching).imp id fun ⟨status, hstatus⟩ => ⟨status, htold status hstatus⟩
  · rw [hinput, hreader, hpc]
    exact h.unclosed
  · rw [hinput, hpc]
    intro hin hjoining
    exact (h.joining hin hjoining).imp id hcancel
  · rw [hinput, hreader, hpc]
    intro hlt hgone
    obtain ⟨hover, hquiet, hcancelled⟩ := h.gone (hmade ▸ hlt) hgone
    exact ⟨hover, htodo hquiet, hcancelled⟩

/-- A connection the control worker is not at, and stays away from. -/
theorem InputOk.elsewhere (h : InputOk s k) (hpc : s.control.pc.input? ≠ some k) (hpc' : s'.control.pc.input? ≠ some k)
    (hmade : s.made ≤ s'.made) (hlt : k < s'.made → k < s.made) (hinput : s'.inputs k = s.inputs k)
    (hreader : s'.readers k = s.readers k) (htodo : s'.todo (.reader k) = s.todo (.reader k)) : InputOk s' k where
  absent := by
    rw [hinput, hreader, htodo]
    exact h.absent
  closed := by
    rw [hinput]
    intro hclosed
    exact (h.closed hclosed).mono hmade (fun hin => absurd hin hpc') (fun h => hinput ▸ h) (fun h => hreader ▸ h)
      (fun h => hreader ▸ h)
  live := by
    rw [hinput, hreader]
    exact h.live
  early hin := absurd hin hpc'
  unlaunched hin := absurd hin hpc'
  begins hin := absurd hin hpc'
  launching hin := absurd hin hpc'
  unclosed hin := absurd hin hpc'
  joining hin := absurd hin hpc'
  gone := by
    rw [hinput, hreader, htodo]
    exact fun hmade' _ => h.gone (hlt hmade') fun hin => absurd hin hpc

/-- The control worker goes on at the same connection. -/
theorem InputOk.goto (h : InputOk s k) (hpc : s.control.pc.input? = some k) (hpc' : s'.control.pc.input? = some k)
    (hleads : s.control.pc.leads s'.control.pc = true)
    (hjoining : s'.control.pc.isJoining = true → .cancel k ∈ s'.todo .control) (hmade : s'.made = s.made)
    (hinput : s'.inputs k = s.inputs k) (hreader : s'.readers k = s.readers k)
    (htodo : s'.todo (.reader k) = s.todo (.reader k)) : InputOk s' k := by
  simp only [Pc.leads, Bool.and_eq_true, Bool.or_eq_true, Bool.not_eq_true', beq_iff_eq] at hleads
  obtain ⟨⟨⟨⟨hearly, hunlaunched⟩, hbegins⟩, hleaves⟩, hlaunching⟩ := hleads
  have himp : ∀ {a b : Bool}, a = false ∨ b = true → a = true → b = true := by decide
  constructor
  · rw [hinput, hreader, htodo]
    exact h.absent
  · rw [hinput]
    intro hclosed
    exact (h.closed hclosed).mono hmade.ge (fun _ => ⟨hpc, himp hearly, himp hbegins⟩) (fun h => hinput ▸ h)
      (fun h => hreader ▸ h) (fun h => hreader ▸ h)
  · rw [hinput, hreader]
    exact h.live
  · rw [hinput]
    exact fun _ hin => h.early hpc (himp hearly hin)
  · rw [hreader]
    exact fun _ hin => h.unlaunched hpc (himp hunlaunched hin)
  · rw [hinput]
    exact fun _ hin => h.begins hpc (himp hbegins hin)
  · rw [hlaunching]
    exact fun _ hin => absurd hin Bool.false_ne_true
  · rw [hinput, hreader, hleaves]
    exact fun _ => h.unclosed hpc
  · exact fun _ hin => .inr (hjoining hin)
  · rw [hinput, hreader, htodo, hmade, hleaves]
    exact fun hlt hgone => h.gone hlt fun _ => hgone hpc'

/-- A connection that has no reader. -/
theorem InputOk.of_absent {input : AvInput} (hinput : s.inputs k = input) (habsent : s.readers k = .absent)
    (hqueue : input.queued = []) (hquiet : s.todo (.reader k) = [])
    (hclosed : input.queue.closed = true → Closable s k)
    (hearly : s.control.pc.early = true → input.packets = false ∧ input.status.state = .closed ∧
      input.queue.closed = false)
    (hbegins : s.control.pc.begins = true → input.packets = true)
    (hlaunching : s.control.pc.isLaunching = true →
      input.status.state = .opened ∨ ∃ status, .publishInput k status ∈ s.todo .control)
    (hjoining : s.control.pc.isJoining = false) : InputOk s k := by
  subst hinput
  exact {
    absent := fun _ => ⟨hqueue, hquiet⟩
    closed := hclosed
    live := fun hlive => absurd habsent hlive
    early := fun _ => hearly
    unlaunched := fun _ _ => habsent
    begins := fun _ => hbegins
    launching := fun _ => hlaunching
    unclosed := fun _ _ hlive => absurd habsent hlive
    joining := fun _ hin => absurd (hjoining.symm.trans hin) Bool.false_ne_true
    gone := fun _ _ => ⟨.inl habsent, hquiet, .inr habsent⟩ }

theorem Pc.leaves_only {pc : Pc} (h : pc.leaves = true) : pc.early = false ∧ pc.unlaunched = false ∧
    pc.begins = false ∧ pc.isLaunching = false ∧ pc.isJoining = false := by
  cases pc with
  | detaching | discarding | releasing => exact ⟨rfl, rfl, rfl, rfl, rfl⟩
  | _ => exact absurd h Bool.false_ne_true

/-- A connection whose reader is joined. -/
theorem InputOk.of_gone {input : AvInput} (hinput : s.inputs k = input)
    (hover : s.readers k = .absent ∨ s.readers k = .done) (hquiet : s.todo (.reader k) = [])
    (hcancelled : input.cancelled = true ∨ s.readers k = .absent)
    (hqueue : s.readers k = .absent → input.queued = []) (hclosed : input.queue.closed = true → Closable s k)
    (hleaves : s.control.pc.input? = some k → s.control.pc.leaves = true) : InputOk s k := by
  subst hinput
  have honly : s.control.pc.input? = some k → _ := fun hpc => Pc.leaves_only (hleaves hpc)
  exact {
    absent := fun habsent => ⟨hqueue habsent, hquiet⟩
    closed := hclosed
    live := fun hlive huncancelled => by
      rcases hcancelled with hcancelled | habsent
      · exact absurd (huncancelled.symm.trans hcancelled) Bool.false_ne_true
      · exact absurd habsent hlive
    early := fun hpc hin => absurd ((honly hpc).1.symm.trans hin) Bool.false_ne_true
    unlaunched := fun hpc hin => absurd ((honly hpc).2.1.symm.trans hin) Bool.false_ne_true
    begins := fun hpc hin => absurd ((honly hpc).2.2.1.symm.trans hin) Bool.false_ne_true
    launching := fun hpc hin => absurd ((honly hpc).2.2.2.1.symm.trans hin) Bool.false_ne_true
    unclosed := fun hpc hin => absurd (hin.symm.trans (hleaves hpc)) Bool.false_ne_true
    joining := fun hpc hin => absurd ((honly hpc).2.2.2.2.symm.trans hin) Bool.false_ne_true
    gone := fun _ _ => ⟨hover, hquiet, hcancelled⟩ }

/-! ### The control worker -/

theorem Pc.leads_closable {k : ℕ} (h : Closable s k) (hleads : s.control.pc.leads s'.control.pc = true)
    (hpc : s'.control.pc.input? = s.control.pc.input?) (hmade : s'.made = s.made)
    (hinput : s'.inputs k = s.inputs k) (hreader : s'.readers k = s.readers k) : Closable s' k := by
  simp only [Pc.leads, Bool.and_eq_true, Bool.or_eq_true, Bool.not_eq_true', beq_iff_eq] at hleads
  have himp : ∀ {a b : Bool}, a = false ∨ b = true → a = true → b = true := by decide
  exact h.mono hmade.ge (fun hin => ⟨hpc ▸ hin, himp hleads.1.1.1.1, himp hleads.1.1.2⟩) (fun h => hinput ▸ h)
    (fun h => hreader ▸ h) (fun h => hreader ▸ h)

/-- The control worker goes on, or is at a connection it made or leaves. -/
theorem Placed.relocate (h : Placed s) (hin : s'.input = s'.control.pc.input?)
    (hlast : ∀ k, s'.control.pc.input? = some k → k + 1 = s'.made) (hmade : s.made ≤ s'.made)
    (hfresh : ∀ k, s'.made ≤ k → s'.inputs k = s.inputs k ∧ s'.readers k = s.readers k)
    (htodo : ∀ t, t ≠ .control → s'.todo t = s.todo t) (hcontrol : ∀ task ∈ s'.todo .control, TaskOk s' .control task)
    (hclosable : ∀ k, Closable s k → Closable s' k) (hdone : ∀ k, s.readers k = .done → s'.readers k = .done)
    (hqueue : ∀ k, s.readers k = .done → (s.inputs k).queued = [] → (s'.inputs k).queued = [])
    (hcancelled : ∀ k, s.readers k = .done → (s.inputs k).cancelled = true → (s'.inputs k).cancelled = true)
    (hinputs : ∀ k, InputOk s' k) : Placed s' where
  input := hin
  made := hlast
  fresh k hk := by
    obtain ⟨hinput, hreader⟩ := hfresh k hk
    rw [hinput, hreader, htodo (.reader k) (by simp)]
    exact h.fresh k (hmade.trans hk)
  tasks t task hmem := by
    by_cases ht : t = .control
    · subst ht
      exact hcontrol task hmem
    · rw [htodo t ht] at hmem
      exact (h.tasks t task hmem).mono ht hmade hclosable hdone hqueue hcancelled
  inputs := hinputs

/-- The control worker goes on and touches no connection. -/
theorem Placed.goto (h : Placed s) (hin : s'.input = s.input) (hpc : s'.control.pc.input? = s.control.pc.input?)
    (hleads : s.control.pc.leads s'.control.pc = true)
    (hjoining : ∀ k, s'.control.pc.input? = some k → s'.control.pc.isJoining = true → .cancel k ∈ s'.todo .control)
    (hmade : s'.made = s.made) (hinputs : s'.inputs = s.inputs) (hreaders : s'.readers = s.readers)
    (htodo : ∀ t, t ≠ .control → s'.todo t = s.todo t)
    (hcontrol : ∀ task ∈ s'.todo .control, TaskOk s' .control task) : Placed s' := by
  refine h.relocate (by rw [hin, h.input, hpc]) (by rw [hpc, hmade]; exact h.made) hmade.ge
    (fun k _ => ⟨congrFun hinputs k, congrFun hreaders k⟩) htodo hcontrol
    (fun k hk => Pc.leads_closable hk hleads hpc hmade (congrFun hinputs k) (congrFun hreaders k))
    (fun k hk => hreaders ▸ hk) (fun k _ hk => hinputs ▸ hk) (fun k _ hk => hinputs ▸ hk) fun k => ?_
  have hreader := htodo (.reader k) (by simp)
  by_cases hplace : s.control.pc.input? = some k
  · exact (h.inputs k).goto hplace (hpc.trans hplace) hleads (hjoining k (hpc.trans hplace)) hmade (congrFun hinputs k)
      (congrFun hreaders k) hreader
  · exact (h.inputs k).elsewhere hplace (hpc ▸ hplace) hmade.ge (fun hlt => hmade ▸ hlt) (congrFun hinputs k)
      (congrFun hreaders k) hreader

/-- The control worker goes on at its connection, or leaves it, and touches no other. -/
theorem Placed.work (h : Placed s) {k : ℕ} (hplace : s.control.pc.input? = some k)
    (hin : s'.input = s'.control.pc.input?) (hpc : ∀ j, s'.control.pc.input? = some j → j = k)
    (hmade : s'.made = s.made)
    (hinputs : ∀ j, j ≠ k → s'.inputs j = s.inputs j) (hreaders : ∀ j, j ≠ k → s'.readers j = s.readers j)
    (htodo : ∀ t, t ≠ .control → s'.todo t = s.todo t) (hcontrol : ∀ task ∈ s'.todo .control, TaskOk s' .control task)
    (hclosable : Closable s k → Closable s' k) (hdone : s.readers k = .done → s'.readers k = .done)
    (hqueue : s.readers k = .done → (s.inputs k).queued = [] → (s'.inputs k).queued = [])
    (hcancelled : s.readers k = .done → (s.inputs k).cancelled = true → (s'.inputs k).cancelled = true)
    (hinput : InputOk s' k) : Placed s' := by
  have hlast := h.made k hplace
  have hother : ∀ j, j ≠ k → s.control.pc.input? ≠ some j := fun j hj heq =>
    hj (Option.some.inj (heq.symm.trans hplace))
  have hother' : ∀ j, j ≠ k → s'.control.pc.input? ≠ some j := fun j hj heq => hj (hpc j heq)
  refine h.relocate hin (fun j hj => ?_) hmade.ge (fun j hj => ?_) htodo hcontrol (fun j hj => ?_) (fun j hj => ?_)
    (fun j hj hq => ?_) (fun j hj hc => ?_) fun j => ?_
  · rw [hpc j hj, hmade, hlast]
  · have hne : j ≠ k := by omega
    exact ⟨hinputs j hne, hreaders j hne⟩
  all_goals by_cases hjk : j = k
  · subst hjk
    exact hclosable hj
  · exact hj.mono hmade.ge (fun hin => absurd hin (hother' j hjk)) (fun h => hinputs j hjk ▸ h)
      (fun h => hreaders j hjk ▸ h) (fun h => hreaders j hjk ▸ h)
  · subst hjk
    exact hdone hj
  · exact hreaders j hjk ▸ hj
  · subst hjk
    exact hqueue hj hq
  · exact hinputs j hjk ▸ hq
  · subst hjk
    exact hcancelled hj hc
  · exact hinputs j hjk ▸ hc
  · subst hjk
    exact hinput
  · exact (h.inputs j).elsewhere (hother j hjk) (hother' j hjk) hmade.ge (fun hlt => hmade ▸ hlt)
      (hinputs j hjk) (hreaders j hjk) (htodo (.reader j) (by simp))

/-- The control worker is bound to nothing. -/
theorem TaskOk.of_empty {task : Task} (hempty : s.todo .control = []) (hsame : s'.todo .control = s.todo .control)
    (hmem : task ∈ s'.todo .control) : TaskOk s' .control task := by
  rw [hsame, hempty] at hmem
  cases hmem

/-- The control worker only goes on. -/
theorem Placed.goto_pc (h : Placed s) {pc : Pc} (hempty : s.todo .control = [])
    (hpc : pc.input? = s.control.pc.input?) (hleads : s.control.pc.leads pc = true)
    (hjoining : pc.isJoining = false) : Placed (s.goto pc) :=
  h.goto rfl hpc hleads (fun _ _ hin => absurd (hjoining.symm.trans hin) Bool.false_ne_true) rfl rfl rfl
    (fun _ _ => rfl) fun _ => .of_empty hempty rfl

/-- The control worker goes on and announces a state of the proxy. -/
theorem Placed.announces (h : Placed s) {state : AvInputProxyState} {retries delay : ℕ}
    {error : Option Exception} (hin : s'.input = s.input) (hpc : s'.control.pc.input? = s.control.pc.input?)
    (hleads : s.control.pc.leads s'.control.pc = true) (hjoining : s'.control.pc.isJoining = false)
    (hmade : s'.made = s.made) (hinputs : s'.inputs = s.inputs) (hreaders : s'.readers = s.readers)
    (htodo : s'.todo = s.todo) : Placed (s'.announces state retries delay error) :=
  h.goto hin hpc hleads (fun _ _ hin => absurd (hjoining.symm.trans hin) Bool.false_ne_true) hmade hinputs hreaders
    (fun t ht => by rw [AvInputProxy.announces, bind_todo_of_ne ht, htodo]) fun task hmem => by
      rw [AvInputProxy.announces, bind_todo_self] at hmem
      rcases List.mem_cons.mp hmem with rfl | hmem
      · trivial
      · rw [List.mem_singleton.mp hmem]
        trivial

theorem Placed.finish (h : Placed s) {state : AvInputProxyState} {retries : ℕ} {error : Option Exception}
    (hnone : s.control.pc.input? = none) (hleads : s.control.pc.leads .done = true) :
    Placed (s.finish state retries error) :=
  h.announces rfl hnone.symm hleads rfl rfl rfl rfl rfl

/-- A connection without a queue may not be closed. -/
theorem Closable.not_early (h : Closable s k) (hpc : s.control.pc.input? = some k) : s.control.pc.early ≠ true := by
  rw [h.late hpc]
  exact Bool.false_ne_true

theorem Placed.created (h : Placed s) (hpc : s.control.pc = .creating) :
    Placed (({ s with
      made := s.made + 1, input := some s.made, terminal := none
      status := { s.status with info := none } }.goto (.rechecking s.made)).announces .connecting s.control.retries
        0 none) := by
  have hnone : s.control.pc.input? = none := by
    rw [hpc]
    rfl
  refine h.relocate rfl (fun k hk => ?_) (Nat.le_succ _) (fun k hk => ⟨rfl, rfl⟩) (fun t ht => ?_) (fun task hmem => ?_)
    (fun k hk => ?_) (fun k hk => hk) (fun k _ hk => hk) (fun k _ hk => hk) fun k => ?_
  · rw [← Option.some.inj hk]
    rfl
  · rw [AvInputProxy.announces, bind_todo_of_ne ht]
    rfl
  · rw [AvInputProxy.announces, bind_todo_self] at hmem
    rcases List.mem_cons.mp hmem with rfl | hmem
    · trivial
    · rw [List.mem_singleton.mp hmem]
      trivial
  · refine hk.mono (Nat.le_succ _) (fun hin => ?_) id id id
    exact absurd hk.made (by rw [← Option.some.inj hin]; exact lt_irrefl _)
  · by_cases hlast : k = s.made
    · -- the connection is new
      subst hlast
      obtain ⟨hinput, hreader, hquiet⟩ := h.fresh s.made le_rfl
      exact .of_absent hinput hreader rfl hquiet (fun hclosed => absurd hclosed Bool.false_ne_true)
        (fun _ => ⟨rfl, rfl, rfl⟩) (fun hin => absurd hin Bool.false_ne_true)
        (fun hin => absurd hin Bool.false_ne_true) rfl
    · refine (h.inputs k).elsewhere (by rw [hnone]; simp) (fun heq => hlast (Option.some.inj heq).symm)
        (Nat.le_succ _) (fun hlt => ?_) rfl rfl rfl
      have hle : k < s.made + 1 := hlt
      omega

/-- What the control worker does to a connection that has no reader. -/
theorem Placed.readerless (h : Placed s) {input : AvInput} {pc : Pc} {tasks : List Task}
    (hplace : s.control.pc.input? = some k) (hunlaunched : s.control.pc.unlaunched = true)
    (hpc : pc.input? = some k) (hcontrol : ∀ task ∈ tasks,
      TaskOk (((s.setInput k input).goto pc).bind .control tasks) .control task)
    (hclosable : Closable s k → Closable (((s.setInput k input).goto pc).bind .control tasks) k)
    (hqueue : input.queued = [])
    (hclosed : input.queue.closed = true → Closable (((s.setInput k input).goto pc).bind .control tasks) k)
    (hearly : pc.early = true → input.packets = false ∧ input.status.state = .closed ∧ input.queue.closed = false)
    (hbegins : pc.begins = true → input.packets = true)
    (hlaunching : pc.isLaunching = true → input.status.state = .opened ∨ ∃ status, .publishInput k status ∈ tasks)
    (hjoining : pc.isJoining = false) : Placed (((s.setInput k input).goto pc).bind .control tasks) := by
  have habsent := (h.inputs k).unlaunched hplace hunlaunched
  obtain ⟨-, hquiet⟩ := (h.inputs k).absent habsent
  have hsame : (((s.setInput k input).goto pc).bind .control tasks).inputs k = input := setInput_self
  have htodo : (((s.setInput k input).goto pc).bind .control tasks).todo .control = tasks := bind_todo_self
  have hdead : s.readers k ≠ .done := by
    rw [habsent]
    simp
  have hin : s.input = pc.input? := h.input.trans (hplace.trans hpc.symm)
  refine h.work hplace hin (fun j hj => (Option.some.inj (hpc.symm.trans hj)).symm) rfl
    (fun j hj => setInput_of_ne hj) (fun _ _ => rfl) (fun t ht => bind_todo_of_ne ht)
    (htodo ▸ hcontrol) hclosable (fun hdone => absurd hdone hdead) (fun hdone => absurd hdone hdead)
    (fun hdone => absurd hdone hdead) ?_
  refine .of_absent hsame habsent hqueue ((bind_todo_of_ne (by simp)).trans hquiet) hclosed hearly hbegins ?_ hjoining
  rw [htodo]
  exact hlaunching

theorem Placed.uncancelled (h : Placed s) (hpc : s.control.pc = .uncancelling k) (hempty : s.todo .control = []) :
    Placed ((s.setInput k (s.inputs k).uncancel).goto (.queueing k)) := by
  have hplace : s.control.pc.input? = some k := by
    rw [hpc]
    rfl
  have hearly : s.control.pc.early = true := by
    rw [hpc]
    rfl
  have hunlaunched : s.control.pc.unlaunched = true := by
    rw [hpc]
    rfl
  have hinput := (h.inputs k).early hplace hearly
  have hsame : (s.setInput k (s.inputs k).uncancel).goto (.queueing k) =
      ((s.setInput k (s.inputs k).uncancel).goto (.queueing k)).bind .control [] := by
    rw [bind, ← hempty]
    exact congrArg (fun todo => { (s.setInput k (s.inputs k).uncancel).goto (.queueing k) with todo := todo })
      (Function.update_eq_self _ _).symm
  rw [hsame]
  refine h.readerless hplace hunlaunched rfl (fun task hmem => by cases hmem)
    (fun hclosable => absurd hearly (hclosable.not_early hplace)) ?_ (fun hclosed => ?_) (fun _ => hinput)
    (fun hin => absurd hin Bool.false_ne_true) (fun hin => absurd hin Bool.false_ne_true) rfl
  · exact ((h.inputs k).absent ((h.inputs k).unlaunched hplace hunlaunched)).1
  · exact absurd (hinput.2.2.symm.trans hclosed) Bool.false_ne_true

theorem Placed.queued (h : Placed s) (hpc : s.control.pc = .queueing k) :
    Placed (((s.setInput k ((s.inputs k).makeQueue s.capacity)).goto (.opening k)).bind .control
      [.publishInput k { state := .opening }]) := by
  have hplace : s.control.pc.input? = some k := by
    rw [hpc]
    rfl
  have hearly : s.control.pc.early = true := by
    rw [hpc]
    rfl
  refine h.readerless hplace (by rw [hpc]; rfl) rfl (fun task hmem => ?_)
    (fun hclosable => absurd hearly (hclosable.not_early hplace)) rfl
    (fun hclosed => absurd hclosed Bool.false_ne_true) (fun hin => absurd hin Bool.false_ne_true) (fun _ => rfl)
    (fun hin => absurd hin Bool.false_ne_true) rfl
  rw [List.mem_singleton.mp hmem]
  exact Telling.opening rfl rfl

theorem Placed.described (h : Placed s) {info : AvInputInfo} (hpc : s.control.pc = .describing k info) :
    Placed (((s.setInput k ((s.inputs k).describe info)).goto (.launching k)).bind .control
      [.publishInput k { state := .opened }]) := by
  have hplace : s.control.pc.input? = some k := by
    rw [hpc]
    rfl
  have hunlaunched : s.control.pc.unlaunched = true := by
    rw [hpc]
    rfl
  have habsent := (h.inputs k).unlaunched hplace hunlaunched
  have hclosable : Closable s k → Closable (((s.setInput k ((s.inputs k).describe info)).goto (.launching k)).bind
      .control [.publishInput k { state := .opened }]) k := by
    intro hclosable
    refine hclosable.mono le_rfl (fun _ => ⟨hplace, fun hin => absurd hin Bool.false_ne_true, fun _ => ?_⟩)
      (fun hcancelled => ?_) id id
    · rw [hpc]
      rfl
    · exact (congrArg AvInput.cancelled (setInput_self (s := s) (k := k))).trans hcancelled
  refine h.readerless hplace hunlaunched rfl (fun task hmem => ?_) hclosable ((h.inputs k).absent habsent).1
    (fun hclosed => hclosable ((h.inputs k).closed hclosed)) (fun hin => absurd hin Bool.false_ne_true)
    (fun _ => (h.inputs k).begins hplace (by rw [hpc]; rfl)) (fun _ => .inr ⟨_, List.mem_singleton_self _⟩) rfl
  rw [List.mem_singleton.mp hmem]
  exact Telling.opened rfl rfl

theorem Placed.launched (h : Placed s) (hpc : s.control.pc = .launching k) (hempty : s.todo .control = []) :
    Placed ((s.setReader k .checking).goto (.settling k)) := by
  have hplace : s.control.pc.input? = some k := by
    rw [hpc]
    rfl
  have hok := h.inputs k
  have habsent := hok.unlaunched hplace (by rw [hpc]; rfl)
  have hbegins : s.control.pc.begins = true := by
    rw [hpc]
    rfl
  have hpackets := hok.begins hplace hbegins
  have hquiet := (hok.absent habsent).2
  have hopened : (s.inputs k).status.state = .opened := by
    rcases hok.launching hplace (by rw [hpc]; rfl) with hopened | ⟨status, hstatus⟩
    · exact hopened
    · rw [hempty] at hstatus
      cases hstatus
  have hself : ((s.setReader k .checking).goto (.settling k)).readers k = .checking := setReader_self
  -- the queue is closed only if the connection is cancelled
  have hclosable : Closable s k → Closable ((s.setReader k .checking).goto (.settling k)) k := by
    intro hclosable
    refine ⟨hclosable.made, fun _ => rfl, ?_⟩
    rcases hclosable.ceased with hcancelled | hdone | ⟨-, hnot⟩
    · exact .inl hcancelled
    · exact absurd (habsent.symm.trans hdone) (by simp)
    · exact absurd (hbegins.symm.trans (hnot hplace)) (by simp)
  have hdead : s.readers k ≠ .done := by
    rw [habsent]
    simp
  refine h.work hplace (h.input.trans hplace) (fun j hj => (Option.some.inj hj).symm) rfl (fun _ _ => rfl)
    (fun j hj => setReader_of_ne hj) (fun _ _ => rfl) (fun _ => .of_empty hempty rfl) hclosable
    (fun hdone => absurd hdone hdead) (fun hdone => absurd hdone hdead) (fun hdone => absurd hdone hdead) ?_
  · constructor
    · rw [hself]
      exact fun habsent => by cases habsent
    · exact fun hclosed => hclosable (hok.closed hclosed)
    · exact fun _ _ => ⟨hpackets, .inl hopened⟩
    · exact fun _ hin => absurd hin Bool.false_ne_true
    · exact fun _ hin => absurd hin Bool.false_ne_true
    · exact fun _ hin => absurd hin Bool.false_ne_true
    · exact fun _ hin => absurd hin Bool.false_ne_true
    · intro _ _ _ hclosed
      exact absurd (hopened.symm.trans hclosed) (by decide)
    · exact fun _ hin => absurd hin Bool.false_ne_true
    · exact fun _ hgone => absurd (hgone rfl) Bool.false_ne_true

theorem Placed.failed (h : Placed s) {e : Exception} (hpc : s.control.pc = .giving k e) :
    Placed ((s.goto (.retiring k { state := .failed, error := some e })).bind .control
      [.publishInput k ((s.inputs k).failure e)]) := by
  have hplace : s.control.pc.input? = some k := by
    rw [hpc]
    rfl
  have habsent := (h.inputs k).unlaunched hplace (by rw [hpc]; rfl)
  refine h.goto rfl hplace.symm (by rw [hpc]; rfl) (fun _ _ hin => absurd hin Bool.false_ne_true) rfl rfl rfl
    (fun t ht => bind_todo_of_ne ht) fun task hmem => ?_
  rw [bind_todo_self] at hmem
  rw [List.mem_singleton.mp hmem]
  refine Telling.broken rfl habsent ?_
  rw [AvInput.failure]
  split <;> rfl

theorem Placed.closes (h : Placed s) {terminal : AvInputStatus} (hpc : s.control.pc = .closing k terminal) :
    Placed ((s.goto (.joining k terminal)).bind .control [.cancel k]) := by
  refine h.goto rfl (by rw [hpc]; rfl) (by rw [hpc]; rfl) (fun j hj _ => ?_) rfl rfl rfl
    (fun t ht => bind_todo_of_ne ht) fun task hmem => ?_
  · obtain rfl : k = j := Option.some.inj hj
    rw [bind_todo_self]
    exact List.mem_singleton_self _
  · rw [bind_todo_self] at hmem
    rw [List.mem_singleton.mp hmem]
    exact ⟨rfl, .inl rfl⟩

/-- What the control worker does to a connection whose reader is joined. -/
theorem Placed.leave (h : Placed s) (hplace : s.control.pc.input? = some k)
    (hgone : (s.readers k = .absent ∨ s.readers k = .done) ∧ s.todo (.reader k) = [] ∧
      ((s.inputs k).cancelled = true ∨ s.readers k = .absent))
    (hin : s'.input = s'.control.pc.input?) (hpc : ∀ j, s'.control.pc.input? = some j → j = k)
    (hleaves : s'.control.pc.input? = some k → s'.control.pc.leaves = true) (hmade : s'.made = s.made)
    (hinputs : ∀ j, j ≠ k → s'.inputs j = s.inputs j) (hreaders : s'.readers = s.readers)
    (htodo : ∀ t, t ≠ .control → s'.todo t = s.todo t) (hcontrol : ∀ task ∈ s'.todo .control, TaskOk s' .control task)
    (hcancelled : (s'.inputs k).cancelled = (s.inputs k).cancelled)
    (hclosed : (s'.inputs k).queue.closed = (s.inputs k).queue.closed)
    (hqueue : (s.inputs k).queued = [] → (s'.inputs k).queued = []) : Placed s' := by
  obtain ⟨hover, hquiet, hgone⟩ := hgone
  have hclosable : Closable s k → Closable s' k := fun hk =>
    hk.mono hmade.ge (fun hin => ⟨hplace, fun hearly => absurd ((Pc.leaves_only (hleaves hin)).1.symm.trans hearly)
      Bool.false_ne_true, fun hbegins => absurd ((Pc.leaves_only (hleaves hin)).2.2.1.symm.trans hbegins)
      Bool.false_ne_true⟩) (fun h => hcancelled ▸ h) (fun h => hreaders ▸ h) (fun h => hreaders ▸ h)
  refine h.work hplace hin hpc hmade hinputs (fun j _ => congrFun hreaders j) htodo hcontrol hclosable
    (fun hdone => hreaders ▸ hdone) (fun _ => hqueue) (fun _ hold => hcancelled ▸ hold) ?_
  refine .of_gone rfl (by rwa [hreaders]) ((htodo _ (by simp)).trans hquiet) (by rwa [hreaders, hcancelled])
    (fun habsent => hqueue ((h.inputs k).absent (hreaders ▸ habsent)).1)
    (fun hin => hclosable ((h.inputs k).closed (hclosed ▸ hin))) hleaves

/-- The reader of a connection the control worker is closing is joined. -/
theorem Placed.gone (h : Placed s) (hplace : s.control.pc.input? = some k) (hleaves : s.control.pc.leaves = true) :
    (s.readers k = .absent ∨ s.readers k = .done) ∧ s.todo (.reader k) = [] ∧
      ((s.inputs k).cancelled = true ∨ s.readers k = .absent) := by
  refine (h.inputs k).gone ?_ fun _ => hleaves
  have hlast := h.made k hplace
  omega

theorem Placed.left (h : Placed s) {pc : Pc} (hempty : s.todo .control = []) (hplace : s.control.pc.input? = some k)
    (hgone : (s.readers k = .absent ∨ s.readers k = .done) ∧ s.todo (.reader k) = [] ∧
      ((s.inputs k).cancelled = true ∨ s.readers k = .absent))
    (hpc : pc.input? = some k) (hleaves : pc.leaves = true) : Placed (s.goto pc) :=
  h.leave hplace hgone (h.input.trans (hplace.trans hpc.symm)) (fun _ hj => (Option.some.inj (hpc.symm.trans hj)).symm)
    (fun _ => hleaves) rfl (fun _ _ => rfl) rfl (fun _ _ => rfl) (fun _ => .of_empty hempty rfl) rfl rfl id

theorem Placed.worked (h : Placed s) (hempty : s.todo .control = []) (hstep : Worked s events s') : Placed s' := by
  cases hstep with
  | breaks hpc hstopping =>
    rcases hpc with hpc | hpc | ⟨terminal, hpc⟩ <;> exact h.finish (by rw [hpc]; rfl) (by rw [hpc]; rfl)
  | loops hpc hgoing => exact h.goto_pc hempty (by rw [hpc]; rfl) (by rw [hpc]; rfl) rfl
  | created hpc => exact h.created hpc
  | unopened hpc hstopping => exact h.goto_pc hempty (by rw [hpc]; rfl) (by rw [hpc]; rfl) rfl
  | rechecked hpc hgoing => exact h.goto_pc hempty (by rw [hpc]; rfl) (by rw [hpc]; rfl) rfl
  | uncancelled hpc => exact h.uncancelled hpc hempty
  | queued hpc => exact h.queued hpc
  | gaveUp hpc e =>
    rcases hpc with hpc | hpc | hpc <;> exact h.goto_pc hempty (by rw [hpc]; rfl) (by rw [hpc]; rfl) rfl
  | connected hpc huncancelled => exact h.goto_pc hempty (by rw [hpc]; rfl) (by rw [hpc]; rfl) rfl
  | probed hpc huncancelled info => exact h.goto_pc hempty (by rw [hpc]; rfl) (by rw [hpc]; rfl) rfl
  | described hpc => exact h.described hpc
  | launched hpc => exact h.launched hpc hempty
  | failed hpc => exact h.failed hpc
  | settled hpc =>
    exact h.goto rfl (by rw [hpc]; rfl) (by rw [hpc]; rfl) (fun _ _ hin => absurd hin Bool.false_ne_true) rfl rfl rfl
      (fun _ _ => rfl) fun _ => .of_empty hempty rfl
  | unannounced hpc hstopping => exact h.goto_pc hempty (by rw [hpc]; rfl) (by rw [hpc]; rfl) rfl
  | announced hpc hgoing => exact h.announces rfl (by rw [hpc]; rfl) (by rw [hpc]; rfl) rfl rfl rfl rfl rfl
  | offered hpc =>
    exact h.goto rfl (by rw [hpc]; rfl) (by rw [hpc]; rfl) (fun _ _ hin => absurd hin Bool.false_ne_true) rfl rfl rfl
      (fun _ _ => rfl) fun _ => .of_empty hempty rfl
  | stopSeen hpc hstopping => exact h.goto_pc hempty (by rw [hpc]; rfl) (by rw [hpc]; rfl) rfl
  | ended hpc hgoing hterminal => exact h.goto_pc hempty (by rw [hpc]; rfl) (by rw [hpc]; rfl) rfl
  | retired hpc =>
    exact h.goto rfl (by rw [hpc]; rfl) (by rw [hpc]; rfl) (fun _ _ hin => absurd hin Bool.false_ne_true) rfl rfl rfl
      (fun _ _ => rfl) fun _ => .of_empty hempty rfl
  | @unclosed k terminal hpc hclosed =>
    have hplace : s.control.pc.input? = some k := by
      rw [hpc]
      rfl
    have habsent : s.readers k = .absent := by
      by_contra hlive
      exact (h.inputs k).unclosed hplace (by rw [hpc]; rfl) hlive hclosed
    exact h.left hempty hplace ⟨.inl habsent, ((h.inputs k).absent habsent).2, .inr habsent⟩ rfl rfl
  | closes hpc hopen => exact h.closes hpc
  | @joined k terminal hpc hdone hquiet =>
    have hplace : s.control.pc.input? = some k := by
      rw [hpc]
      rfl
    refine h.left hempty hplace ⟨hdone, hquiet, .inl ?_⟩ rfl rfl
    rcases (h.inputs k).joining hplace (by rw [hpc]; rfl) with hcancelled | hcancel
    · exact hcancelled
    · rw [hempty] at hcancel
      cases hcancel
  | @detached k terminal hpc =>
    have hplace : s.control.pc.input? = some k := by
      rw [hpc]
      rfl
    have hself : ((s.setInput k (s.inputs k).detach).goto (.discarding k terminal)).inputs k = (s.inputs k).detach :=
      setInput_self
    exact h.leave hplace (h.gone hplace (by rw [hpc]; rfl)) (h.input.trans hplace)
      (fun _ hj => (Option.some.inj hj).symm) (fun _ => rfl) rfl (fun _ hj => setInput_of_ne hj) rfl (fun _ _ => rfl)
      (fun _ => .of_empty hempty rfl) (by rw [hself]; rfl) (by rw [hself]; rfl) (by rw [hself]; exact id)
  | @discarded k terminal packet rest hpc hqueue =>
    have hplace : s.control.pc.input? = some k := by
      rw [hpc]
      rfl
    refine h.leave hplace (h.gone hplace (by rw [hpc]; rfl)) h.input
      (fun _ hj => (Option.some.inj (hplace.symm.trans hj)).symm) (fun _ => by
        show s.control.pc.leaves = true
        rw [hpc]
        rfl) rfl (fun _ hj => setInput_of_ne hj) rfl (fun _ _ => rfl)
      (fun _ => .of_empty hempty rfl) (by rw [setInput_self]) (by rw [setInput_self]) (fun hnone => ?_)
    rw [hqueue] at hnone
    cases hnone
  | @emptied k terminal hpc hqueue =>
    have hplace : s.control.pc.input? = some k := by
      rw [hpc]
      rfl
    refine h.leave hplace (h.gone hplace (by rw [hpc]; rfl)) (h.input.trans hplace)
      (fun _ hj => (Option.some.inj hj).symm) (fun _ => rfl) rfl (fun _ _ => rfl) rfl (fun _ ht => bind_todo_of_ne ht)
      (fun task hmem => ?_) rfl rfl id
    rw [bind_todo_self] at hmem
    rw [List.mem_singleton.mp hmem]
    exact Telling.closed rfl rfl
  | @released k terminal hpc =>
    have hplace : s.control.pc.input? = some k := by
      rw [hpc]
      rfl
    exact h.leave hplace (h.gone hplace (by rw [hpc]; rfl)) rfl (fun _ hj => by cases hj) (fun hj => by cases hj) rfl
      (fun _ _ => rfl) rfl (fun _ _ => rfl) (fun _ => .of_empty hempty rfl) rfl rfl id
  | reopens hpc hgoing hended hloop => exact h.goto_pc hempty (by rw [hpc]; rfl) (by rw [hpc]; rfl) rfl
  | exhausts hpc hgoing hended hloop => exact h.finish (by rw [hpc]; rfl) (by rw [hpc]; rfl)
  | givesUp hpc hgoing hfailed => exact h.finish (by rw [hpc]; rfl) (by rw [hpc]; rfl)
  | retries hpc hgoing hfailed => exact h.announces rfl (by rw [hpc]; rfl) (by rw [hpc]; rfl) rfl rfl rfl rfl rfl
  | cancelled hpc hgoing hended hfailed => exact h.finish (by rw [hpc]; rfl) (by rw [hpc]; rfl)
  | delayed hpc hgoing => exact h.goto_pc hempty (by rw [hpc]; rfl) (by rw [hpc]; rfl) rfl

end AvInputProxy

end MwStreamer
