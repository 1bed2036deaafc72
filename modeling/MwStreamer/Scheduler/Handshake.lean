import MwStreamer.Scheduler.Model

/-!
# The handshake between the driver and the workers

A track has at most one job outstanding: a task the worker has not fetched, a run of the worker, or a result
the driver has not taken.  `Handshake` says which flags go with which program counters, and survives every
step, so nothing is overwritten: not a task, not a head, not a pending item.

What a track carries then flows through single slots: from the source through the lookahead and the task to
the worker, through `pending` into the converter, and from the worker through `result` and `head` to the
syncer.  Each slot is a stock that is filled behind and emptied in front, so every sequence arrives once and
in order.
-/

namespace MwStreamer.Scheduler

/-- The worker is processing a task. -/
def WorkerPc.Working : WorkerPc → Prop
  | .filtering _ | .pushing | .reading | .filteringOutput _ | .publishing _ => True
  | _ => False

/-- The worker waits for a task, or is about to. -/
def WorkerPc.Outside : WorkerPc → Prop
  | .waiting | .notifying => True
  | _ => False

/-- The driver found the track idle. -/
def DriverPc.Preparing : DriverPc → Prop
  | .prepareHead _ | .prepareReady _ | .dispatching _ => True
  | _ => False

/-- The driver found no head. -/
def DriverPc.Unheld : DriverPc → Prop
  | .prepareReady _ | .dispatching _ => True
  | _ => False

/-- The driver has a source item for the worker. -/
def DriverPc.Asking : DriverPc → Prop
  | .prepareReady _ => True
  | .dispatching input => input.status ≠ .null
  | _ => False

/-- **The handshake of a track.** -/
structure Handshake (video : Bool) (d : Driver) (t : Track) (w : Worker) : Prop where
  requested : t.requested = true → t.busy = true
  completed : t.completed = true → t.busy = false
  working : w.pc.Working → t.busy = true ∧ t.requested = false
  busy : t.busy = true → t.requested = true ∨ w.pc.Working ∨ w.pc = .stopped
  task : t.requested = false → t.task.status = .null
  result : t.completed = false → t.result.status = .null
  head : t.busy = true ∨ t.completed = true → t.head.status = .null
  idle : d.video = video → d.pc.Preparing → t.busy = false ∧ t.completed = false
  unheld : d.video = video → d.pc.Unheld → t.head.status = .null
  asking : d.video = video → d.pc.Asking → t.needsInput = true
  pending : w.pc.Outside → w.pending.status ≠ .null → t.needsInput = false ∧ t.task.status = .null
  filtering : ∀ input, w.pc = .filtering input → input.status ≠ .null → w.pending.status = .null

theorem DriverPc.Unheld.preparing {pc : DriverPc} (h : pc.Unheld) : pc.Preparing := by
  cases pc <;> first | exact h | trivial

theorem DriverPc.Asking.unheld {pc : DriverPc} (h : pc.Asking) : pc.Unheld := by
  cases pc <;> first | exact h | trivial

theorem WorkerPc.Outside.not_working {pc : WorkerPc} (h : pc.Outside) : ¬pc.Working := by
  cases pc <;> first | exact h.elim | exact fun hw => hw

variable {video : Bool} {d d' : Driver} {t t' : Track} {w w' : Worker}

theorem Handshake.not_completed (h : Handshake video d t w) (hbusy : t.busy = true) :
    t.completed = false := by
  by_contra hcompleted
  have hidle := h.completed (by simpa using hcompleted)
  rw [hbusy] at hidle
  cases hidle

theorem Handshake.not_requested (h : Handshake video d t w) (hbusy : t.busy = false) :
    t.requested = false := by
  by_contra hrequested
  have hjob := h.requested (by simpa using hrequested)
  rw [hbusy] at hjob
  cases hjob

theorem Handshake.not_preparing (h : Handshake video d t w) (hbusy : t.busy = true) :
    d.video = video → ¬d.pc.Preparing := by
  intro hv hp
  have hidle := (h.idle hv hp).1
  rw [hbusy] at hidle
  cases hidle

/-- A driver that does not look at the track breaks nothing. -/
theorem Handshake.move (h : Handshake video d t w) (hpc : d'.video = video → ¬d'.pc.Preparing) :
    Handshake video d' t w :=
  { h with
    idle := fun hv hp => absurd hp (hpc hv)
    unheld := fun hv hp => absurd hp.preparing (hpc hv)
    asking := fun hv hp => absurd hp.unheld.preparing (hpc hv) }

/-- The fields of a job. -/
structure SameJob (t t' : Track) : Prop where
  busy : t'.busy = t.busy
  requested : t'.requested = t.requested
  completed : t'.completed = t.completed
  task : t'.task = t.task
  result : t'.result = t.result
  needsInput : t'.needsInput = t.needsInput
  head : t.head.status = .null → t'.head.status = .null

theorem Handshake.of_sameJob (h : Handshake video d t w) (hjob : SameJob t t') :
    Handshake video d t' w := by
  obtain ⟨hbusy, hrequested, hcompleted, htask, hresult, hneeds, hhead⟩ := hjob
  refine ⟨?_, ?_, ?_, ?_, ?_, ?_, ?_, ?_, ?_, ?_, ?_, h.filtering⟩
  · rw [hrequested, hbusy]
    exact h.requested
  · rw [hcompleted, hbusy]
    exact h.completed
  · rw [hrequested, hbusy]
    exact h.working
  · rw [hrequested, hbusy]
    exact h.busy
  · rw [hrequested, htask]
    exact h.task
  · rw [hcompleted, hresult]
    exact h.result
  · rw [hcompleted, hbusy]
    intro hjob
    exact hhead (h.head hjob)
  · rw [hcompleted, hbusy]
    exact h.idle
  · intro hv hp
    exact hhead (h.unheld hv hp)
  · rw [hneeds]
    exact h.asking
  · rw [hneeds, htask]
    exact h.pending

theorem SameJob.deliver (t : Track) (observedSpace : ℕ) (step : SyncerStep) (now : ℤ) :
    SameJob t (t.deliver observedSpace step now) := by
  unfold Track.deliver
  by_cases hconsumed : step.consumed = true
  · simp only [if_pos hconsumed]
    split <;> exact ⟨rfl, rfl, rfl, rfl, rfl, rfl, fun _ => rfl⟩
  · simp only [if_neg hconsumed]
    split <;> exact ⟨rfl, rfl, rfl, rfl, rfl, rfl, fun h => h⟩

theorem SameJob.source (t : Track) (item : AvDecoderReadResult) :
    SameJob t { t with sourceHead := item } :=
  ⟨rfl, rfl, rfl, rfl, rfl, rfl, fun h => h⟩

/-- The driver takes the source item for the worker. -/
theorem Handshake.take (h : Handshake video d t w) (hat : d.pc.Asking) {input : AvDecoderReadResult} :
    Handshake video { d with pc := .dispatching input } { t with sourceHead := {} } w :=
  { h.of_sameJob (.source t {}) with
    idle := fun hv _ => h.idle hv hat.unheld.preparing
    unheld := fun hv _ => h.unheld hv hat.unheld
    asking := fun hv _ => h.asking hv hat }

theorem Handshake.complete (h : Handshake video d t w) (now : ℤ) :
    Handshake video d (t.complete now) w := by
  unfold Track.complete
  by_cases hcompleted : t.completed = true
  · have hbusy := h.completed hcompleted
    have hidle : ¬(d.video = video ∧ d.pc.Preparing) := by
      rintro ⟨hv, hp⟩
      have hnot := (h.idle hv hp).2
      rw [hcompleted] at hnot
      cases hnot
    rw [if_pos hcompleted]
    refine { h with
      completed := fun hc => by cases hc
      result := fun _ => rfl
      head := fun hjob => ?_
      idle := fun hv hp => absurd ⟨hv, hp⟩ hidle
      unheld := fun hv hp => absurd ⟨hv, hp.preparing⟩ hidle }
    rcases hjob with hjob | hjob
    · rw [hbusy] at hjob
      cases hjob
    · cases hjob
  · rw [if_neg hcompleted]
    exact h

/-- The driver found the track idle, so the worker has no task and does not work. -/
theorem Handshake.dispatch (h : Handshake video d t w) {input : AvDecoderReadResult}
    (hidle : t.busy = false ∧ t.completed = false) (hhead : t.head.status = .null)
    (hneeds : input.status ≠ .null → t.needsInput = true) (hpc : d'.video = video → ¬d'.pc.Preparing) :
    Handshake video d' (t.dispatch input) w := by
  obtain ⟨hbusy, hcompleted⟩ := hidle
  refine ⟨fun _ => rfl, ?_, ?_, fun _ => .inl rfl, ?_, h.result, fun _ => hhead, ?_, ?_, ?_, ?_, h.filtering⟩
  · intro hc
    have hc : t.completed = true := hc
    rw [hcompleted] at hc
    cases hc
  · intro hw
    have hb := (h.working hw).1
    rw [hbusy] at hb
    cases hb
  · intro hr
    cases hr
  · intro hv hp
    exact absurd hp (hpc hv)
  · intro hv hp
    exact absurd hp.preparing (hpc hv)
  · intro hv hp
    exact absurd hp.unheld.preparing (hpc hv)
  · intro hout hpending
    obtain ⟨hno, -⟩ := h.pending hout hpending
    refine ⟨hno, ?_⟩
    by_contra hinput
    have hyes := hneeds hinput
    rw [hno] at hyes
    cases hyes

section

variable [Libav] {shared : Shared} {es : List Event}

/-- **A driver step at the track.** -/
theorem DriverStep.handshake (h : DriverStep shared d t es d' t') (hs : Handshake d.video d t w) :
    Handshake d.video d' t' w := by
  cases h
  case complete => exact (hs.complete _).move fun _ hp => hp
  case look =>
    have hjob : SameJob t { t with outputBlocked := false } := ⟨rfl, rfl, rfl, rfl, rfl, rfl, fun h => h⟩
    exact (hs.of_sameJob hjob).move fun _ hp => hp
  case stepping => exact (hs.of_sameJob (.deliver ..)).move fun _ hp => hp
  case prepareIdle now hpc hbusy hcompleted =>
    exact { hs with
      idle := fun _ _ => ⟨hbusy, hcompleted⟩
      unheld := fun _ hp => hp.elim
      asking := fun _ hp => hp.elim }
  case prepareDrain now hpc hhead hneeds =>
    exact { hs with
      idle := fun hv _ => hs.idle hv (by rw [hpc]; trivial)
      unheld := fun _ _ => hhead
      asking := fun _ hp => absurd rfl hp }
  case prepareKept now hpc hhead hneeds hsource =>
    exact { hs with
      idle := fun hv _ => hs.idle hv (by rw [hpc]; trivial)
      unheld := fun _ _ => hhead
      asking := fun _ _ => hneeds }
  case prepareEmpty now hpc hhead hneeds hsource item hitem =>
    exact (hs.of_sameJob (.source t item)).move fun _ hp => hp
  case prepareRead now hpc hhead hneeds hsource item hitem =>
    exact { hs.of_sameJob (.source t item) with
      idle := fun hv _ => hs.idle hv (by rw [hpc]; trivial)
      unheld := fun _ _ => hhead
      asking := fun _ _ => hneeds }
  case prepareDiscard => exact (hs.of_sameJob (.source t {})).move fun _ hp => hp
  case prepareReady now pts decision hpc hframe hpts hdiscard hready =>
    exact hs.take (by rw [hpc]; trivial)
  case prepareEof now hpc hframe => exact hs.take (by rw [hpc]; trivial)
  case dispatch input hpc hgo =>
    have hunheld : d.pc.Unheld := by rw [hpc]; trivial
    refine hs.dispatch (hs.idle rfl hunheld.preparing) (hs.unheld rfl hunheld) (fun hinput => ?_)
      fun _ hp => hp
    exact hs.asking rfl (by rw [hpc]; exact hinput)
  all_goals exact hs.move fun _ hp => hp

/-- **A driver step at the other track.** -/
theorem DriverStep.handshake_other (h : DriverStep shared d t es d' t') (hother : d.video ≠ video)
    {tv : Track} (hs : Handshake video d tv w) : Handshake video d' tv w := by
  refine hs.move fun hv hp => ?_
  cases h <;> first | exact hp | exact hother hv

end

/-- A worker that stays inside its job. -/
theorem Handshake.work (h : Handshake video d t w) (hw : w.pc.Working) (hw' : w'.pc.Working)
    (hinput : ∀ input, w'.pc ≠ .filtering input) : Handshake video d t w' :=
  { h with
    working := fun _ => h.working hw
    busy := fun _ => .inr (.inl hw')
    pending := fun hout => absurd hw' (WorkerPc.Outside.not_working hout)
    filtering := fun input hf => absurd hf (hinput input) }

/-- A worker that leaves its loop breaks nothing. -/
theorem Handshake.worker_stopped (h : Handshake video d t w) : Handshake video d t { w with pc := .stopped } :=
  { h with
    working := fun hw => hw.elim
    busy := fun _ => .inr (.inr rfl)
    pending := fun hout => hout.elim
    filtering := fun _ hf => by cases hf }

/-- **A worker step.** -/
theorem WorkerStep.handshake {κ : Type} [Converter κ] {stopping : Bool} {c c' : κ} {es : List Event}
    (h : WorkerStep video stopping w t c es w' t' c') (hs : Handshake video d t w) :
    Handshake video d t' w' := by
  cases h
  case stop hpc hstop => exact hs.worker_stopped
  case fetch hpc hgo hrequested =>
    have hbusy := hs.requested hrequested
    have hcompleted := hs.not_completed hbusy
    have hnot := hs.not_preparing hbusy
    exact {
      requested := fun hr => absurd hr Bool.false_ne_true
      completed := hs.completed
      working := fun _ => ⟨hbusy, rfl⟩
      busy := fun _ => .inr (.inl trivial)
      task := fun _ => rfl
      result := hs.result
      head := hs.head
      idle := fun hv hp => absurd hp (hnot hv)
      unheld := fun hv hp => absurd hp.preparing (hnot hv)
      asking := fun hv hp => absurd hp.unheld.preparing (hnot hv)
      pending := fun hout => hout.elim
      filtering := fun input hf hinput => by
        cases hf
        by_contra hpending
        exact hinput (hs.pending (by rw [hpc]; trivial) hpending).2 }
  case publish output hpc =>
    obtain ⟨hbusy, hrequested⟩ := hs.working (by rw [hpc]; trivial)
    have hnot := hs.not_preparing hbusy
    exact {
      requested := fun hr => absurd (hrequested.symm.trans hr) Bool.false_ne_true
      completed := fun _ => rfl
      working := fun hw => hw.elim
      busy := fun hb => absurd hb Bool.false_ne_true
      task := hs.task
      result := fun hc => absurd hc.symm Bool.false_ne_true
      head := fun _ => hs.head (.inl hbusy)
      idle := fun hv hp => absurd hp (hnot hv)
      unheld := fun hv hp => absurd hp.preparing (hnot hv)
      asking := fun hv hp => absurd hp.unheld.preparing (hnot hv)
      pending := fun _ hpending => by
        refine ⟨?_, hs.task hrequested⟩
        show (decide (w.pending.status = .null) && decide (output.status = .null)) = false
        rw [decide_eq_false hpending, Bool.false_and]
      filtering := fun _ hf => by cases hf }
  case notify hpc =>
    have hout : w.pc.Outside := by rw [hpc]; trivial
    exact { hs with
      working := fun hw => hw.elim
      busy := fun hb => by
        rcases hs.busy hb with hr | hw | hstop
        · exact .inl hr
        · rw [hpc] at hw
          exact hw.elim
        · rw [hpc] at hstop
          cases hstop
      pending := fun _ => hs.pending hout
      filtering := fun _ hf => by cases hf }
  -- The other steps stay inside the job.
  case filterNothing input hpc hinput =>
    exact hs.work (by rw [hpc]; trivial) trivial fun _ hf => by cases hf
  case filterVideo input pending hpc hinput hvideo =>
    exact hs.work (by rw [hpc]; trivial) trivial fun _ hf => by cases hf
  case filterAudio input hpc hinput hvideo =>
    exact hs.work (by rw [hpc]; trivial) trivial fun _ hf => by cases hf
  case pushNothing hpc hpending =>
    exact hs.work (by rw [hpc]; trivial) trivial fun _ hf => by cases hf
  case pushRefused hpc hpending hpush =>
    exact hs.work (by rw [hpc]; trivial) trivial fun _ hf => by cases hf
  case push hpc hpending hpush =>
    exact hs.work (by rw [hpc]; trivial) trivial fun _ hf => by cases hf
  case read output hpc hread =>
    exact hs.work (by rw [hpc]; trivial) trivial fun _ hf => by cases hf
  case outputKept output hpc hkept =>
    exact hs.work (by rw [hpc]; trivial) trivial fun _ hf => by cases hf
  case outputFiltered output result hpc hvideo houtput =>
    exact hs.work (by rw [hpc]; trivial) trivial fun _ hf => by cases hf

/-! ### The system -/

section

variable {κ : Type}

theorem State.fail_track (s : State κ) (e : Exception) : (s.fail e).track = s.track := by
  unfold State.fail
  split <;> rfl

theorem State.fail_worker (s : State κ) (e : Exception) : (s.fail e).worker = s.worker := by
  unfold State.fail
  split <;> rfl

theorem State.fail_driver (s : State κ) (e : Exception) : (s.fail e).driver = s.driver := by
  unfold State.fail
  split <;> rfl

theorem Started.handshake {s : State κ} (h : Started s) (v : Bool) :
    Handshake v s.driver (s.track v) (s.worker v) := by
  rw [h.track v, h.worker v, h.driver]
  exact {
    requested := fun hr => hr
    completed := fun hc => absurd hc Bool.false_ne_true
    working := fun hw => hw.elim
    busy := fun hb => absurd hb Bool.false_ne_true
    task := fun _ => rfl
    result := fun _ => rfl
    head := fun _ => rfl
    idle := fun _ hp => hp.elim
    unheld := fun _ hp => hp.elim
    asking := fun _ hp => hp.elim
    pending := fun _ hp => absurd rfl hp
    filtering := fun _ hf => by cases hf }

/-- **A step keeps the handshake of both tracks.** -/
theorem Step.handshake [Libav] [Converter κ] {s s' : State κ} {es : List Event} (h : Step s es s')
    (hs : ∀ v, Handshake v s.driver (s.track v) (s.worker v)) (v : Bool) :
    Handshake v s'.driver (s'.track v) (s'.worker v) := by
  cases h
  case driver d t h =>
    show Handshake v d (Function.update s.track s.driver.video t v) (s.worker v)
    by_cases hv : s.driver.video = v
    · subst hv
      rw [Function.update_self]
      exact h.handshake (hs _)
    · rw [Function.update_of_ne (Ne.symm hv)]
      exact h.handshake_other hv (hs v)
  case driverThrows e hpc =>
    show Handshake v _ ((s.fail e).track v) ((s.fail e).worker v)
    rw [State.fail_track, State.fail_worker]
    exact (hs v).move fun _ hp => hp
  case worker v' w t c h =>
    show Handshake v s.driver (Function.update s.track v' t v) (Function.update s.worker v' w v)
    by_cases hv : v' = v
    · subst hv
      rw [Function.update_self, Function.update_self]
      exact h.handshake (hs v')
    · rw [Function.update_of_ne (Ne.symm hv), Function.update_of_ne (Ne.symm hv)]
      exact hs v
  case workerThrows v' e hpc =>
    show Handshake v (s.fail e).driver ((s.fail e).track v) (Function.update s.worker v' _ v)
    rw [State.fail_track, State.fail_driver]
    by_cases hv : v' = v
    · subst hv
      rw [Function.update_self]
      exact (hs v').worker_stopped
    · rw [Function.update_of_ne (Ne.symm hv)]
      exact hs v
  all_goals exact hs v

end

end MwStreamer.Scheduler
