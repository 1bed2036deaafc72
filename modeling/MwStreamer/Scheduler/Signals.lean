import MwStreamer.Scheduler.Delivery

/-!
# No notification is lost

`Deliver` reads the revision of its track's output signal before it calls the syncer, and the driver reads the
revision of its own signal before either.  A capacity notification advances the first and then the second.  So
a notification after the look is either seen by the next `Deliver`, or it comes after the driver's own revision
was read and the wait that follows returns.
-/

namespace MwStreamer.Scheduler

/-- The predicate of `Wait` and `WaitUntil`. -/
def State.Awake {κ : Type} (s : State κ) : Prop :=
  s.signal ≠ s.driver.observed ∨ (s.driver.wake ≠ kNoWake ∧ s.driver.wake ≤ s.now)

/-- The driver is behind its `Deliver` of the track in this iteration. -/
def Driver.Past (d : Driver) (video : Bool) : Prop :=
  match d.pc with
  | .top | .observe | .checkSource | .stopped => False
  | .complete | .deliver | .look _ | .drain _ => video = true ∧ d.video = false
  | .stepping _ _ | .delivered => video = true ∨ d.video = false
  | _ => True

/-- The fields of a rejected output. -/
structure SameBlock (t t' : Track) : Prop where
  enabled : t'.enabled = t.enabled
  outputBlocked : t'.outputBlocked = t.outputBlocked
  blockedRevision : t'.blockedRevision = t.blockedRevision
  outputRetryUs : t'.outputRetryUs = t.outputRetryUs

theorem SameBlock.refl (t : Track) : SameBlock t t := ⟨rfl, rfl, rfl, rfl⟩

theorem SameBlock.complete (t : Track) (now : ℤ) : SameBlock t (t.complete now) := by
  unfold Track.complete
  split <;> exact ⟨rfl, rfl, rfl, rfl⟩

section

variable [Libav] {shared : Shared} {d d' : Driver} {t t' : Track} {es : List Event}

/-- **What a driver step does about a rejected output.** -/
theorem DriverStep.delivery (h : DriverStep shared d t es d' t') :
    (∃ now, d.pc = .look now ∧ t.skipsDelivery shared.space now = true ∧ es = [] ∧
      d' = { d with pc := .delivered } ∧ t' = t) ∨
    (∃ now, d.pc = .look now ∧ t.skipsDelivery shared.space now = false ∧
      es = [.at d.video (.looked shared.space)] ∧ d' = { d with pc := .stepping now shared.space } ∧
      t' = { t with outputBlocked := false }) ∨
    (∃ now space step, d.pc = .stepping now space ∧
      es = [.at d.video (.stepped t.stepHead step.consumed step.blocked)] ∧
      d' = { d with pc := .delivered } ∧ t' = t.deliver space step shared.now) ∨
    ((∀ now space, d.pc ≠ .stepping now space) ∧ (∀ now space, d'.pc ≠ .stepping now space) ∧
      (∀ space, .at d.video (.looked space) ∉ es) ∧ SameBlock t t' ∧
      (∀ v, d'.Past v → d.Past v ∨ (d.video = v ∧ ∃ count, d.pc = .drain count))) := by
  cases h
  case lookSkip now hpc hskip => exact .inl ⟨now, hpc, hskip, rfl, rfl, rfl⟩
  case look now hpc hskip => exact .inr (.inl ⟨now, hpc, hskip, rfl, rfl, rfl⟩)
  case stepping now space step hpc => exact .inr (.inr (.inl ⟨now, space, step, hpc, rfl, rfl, rfl⟩))
  case complete hpc henabled =>
    refine .inr (.inr (.inr ⟨?_, ?_, ?_, .complete t _, ?_⟩)) <;> simp [Driver.Past, hpc]
  case dispatch input hpc hgo =>
    refine .inr (.inr (.inr ⟨?_, ?_, ?_, ⟨rfl, rfl, rfl, rfl⟩, ?_⟩)) <;> simp [Driver.Past, hpc, itemEvent]
  all_goals
    refine .inr (.inr (.inr ⟨?_, ?_, ?_, ⟨rfl, rfl, rfl, rfl⟩, ?_⟩)) <;> simp [Driver.Past, *]

end

theorem WorkerStep.sameBlock {κ : Type} [Converter κ] {video stopping : Bool} {w w' : Worker} {t t' : Track}
    {c c' : κ} {es : List Event} (h : WorkerStep video stopping w t c es w' t' c') : SameBlock t t' := by
  cases h <;> exact ⟨rfl, rfl, rfl, rfl⟩

/-! ### The driver's own revision -/

/-- The driver delivers only to an enabled track. -/
def DriverPc.Delivering : DriverPc → Prop
  | .deliver | .look _ | .stepping _ _ => True
  | _ => False

/-- What the driver read is not ahead of what there is. -/
structure Clocked {κ : Type} (s : State κ) : Prop where
  observed : s.driver.observed ≤ s.signal
  look : ∀ now, s.driver.pc = .look now → now ≤ s.now
  enabled : s.driver.pc.Delivering → (s.track s.driver.video).enabled = true
  disabled : ∀ count, s.driver.pc = .drain count → (s.track s.driver.video).enabled = false

section

variable [Libav] {κ : Type} [Converter κ] {s s' : State κ} {es : List Event}

/-- The fields of the state a step only moves forward. -/
structure Forward (s s' : State κ) : Prop where
  signal : s.signal ≤ s'.signal
  now : s.now ≤ s'.now
  space : ∀ v, s.space v ≤ s'.space v
  enabled : ∀ v, (s'.track v).enabled = (s.track v).enabled

theorem DriverStep.enabled {shared : Shared} {d d' : Driver} {t t' : Track}
    (h : DriverStep shared d t es d' t') : t'.enabled = t.enabled := by
  rcases h.delivery with ⟨_, _, _, _, _, rfl⟩ | ⟨_, _, _, _, _, rfl⟩ | ⟨_, _, _, _, _, _, rfl⟩ | ⟨_, _, _, hsame, _⟩
  · rfl
  · rfl
  · unfold Track.deliver
    split <;> split <;> rfl
  · exact hsame.enabled

/-- **A step moves everything forward.** -/
theorem Step.forward (h : Step s es s') : Forward s s' := by
  cases h
  case driver d t h =>
    refine ⟨le_rfl, le_rfl, fun _ => le_rfl, fun v => ?_⟩
    show (Function.update s.track s.driver.video t v).enabled = _
    by_cases hv : v = s.driver.video
    · subst hv
      rw [Function.update_self]
      exact h.enabled
    · rw [Function.update_of_ne hv]
  case driverThrows e hpc =>
    unfold State.fail
    split <;> exact ⟨le_rfl, le_rfl, fun _ => le_rfl, fun _ => rfl⟩
  case worker v' w t c h =>
    refine ⟨?_, le_rfl, fun _ => le_rfl, fun v => ?_⟩
    · show s.signal ≤ if .signalled ∈ es then s.signal + 1 else s.signal
      split <;> omega
    · show (Function.update s.track v' t v).enabled = _
      by_cases hv : v = v'
      · subst hv
        rw [Function.update_self]
        exact h.sameBlock.enabled
      · rw [Function.update_of_ne hv]
  case workerThrows v e hpc =>
    unfold State.fail
    split <;> exact ⟨le_rfl, le_rfl, fun _ => le_rfl, fun _ => rfl⟩
  case notify v =>
    refine ⟨le_rfl, le_rfl, fun v' => ?_, fun _ => rfl⟩
    show s.space v' ≤ Function.update s.space v (s.space v + 1) v'
    by_cases hv : v' = v
    · subst hv
      rw [Function.update_self]
      omega
    · rw [Function.update_of_ne hv]
  case time now hnow => exact ⟨le_rfl, hnow, fun _ => le_rfl, fun _ => rfl⟩
  case requestStop => exact ⟨le_rfl, le_rfl, fun _ => le_rfl, fun _ => rfl⟩
  all_goals exact ⟨Nat.le_succ _, le_rfl, fun _ => le_rfl, fun _ => rfl⟩

/-- What a driver step reads of the shared revisions. -/
theorem DriverStep.clocked {shared : Shared} {d d' : Driver} {t t' : Track}
    (h : DriverStep shared d t es d' t') :
    (d'.observed = d.observed ∨ d'.observed = shared.signal) ∧
    (∀ now, d'.pc = .look now → now = shared.now) ∧
    (d'.pc.Delivering → d'.video = d.video ∧ (d.pc.Delivering ∨ t.enabled = true)) ∧
    (∀ count, d'.pc = .drain count →
      d'.video = d.video ∧ (t.enabled = false ∨ ∃ count', d.pc = .drain count')) := by
  cases h <;> simp [DriverPc.Delivering, *]

theorem Step.clocked (h : Step s es s') (hs : Clocked s) : Clocked s' := by
  have hforward := h.forward
  cases h with
  | driver es d t h =>
    obtain ⟨hobserved, hlook, hdelivering, hdrain⟩ := h.clocked
    have henabled := hforward.enabled
    refine ⟨?_, ?_, ?_, ?_⟩
    · rcases hobserved with hobserved | hobserved
      · show d.observed ≤ s.signal
        rw [hobserved]
        exact hs.observed
      · exact le_of_eq hobserved
    · intro now hpc
      exact le_of_eq (hlook now hpc)
    · intro hpc
      obtain ⟨hv, hbefore⟩ := hdelivering hpc
      rw [henabled]
      show (s.track d.video).enabled = true
      rw [hv]
      rcases hbefore with hbefore | hbefore
      · exact hs.enabled hbefore
      · exact hbefore
    · intro count hpc
      obtain ⟨hv, hbefore⟩ := hdrain count hpc
      rw [henabled]
      show (s.track d.video).enabled = false
      rw [hv]
      rcases hbefore with hbefore | ⟨count', hbefore⟩
      · exact hbefore
      · exact hs.disabled count' hbefore
  | driverThrows e hpc =>
    unfold State.fail
    split <;> exact ⟨hs.observed, nofun, fun hpc => False.elim hpc, nofun⟩
  | worker v es w t c h =>
    refine ⟨hs.observed.trans hforward.signal, fun now hpc => hs.look now hpc, ?_, ?_⟩
    · intro hpc
      rw [hforward.enabled]
      exact hs.enabled hpc
    · intro count hpc
      rw [hforward.enabled]
      exact hs.disabled count hpc
  | workerThrows v e hpc =>
    unfold State.fail
    split <;> exact ⟨hs.observed, hs.look, hs.enabled, hs.disabled⟩
  | time now hnow =>
    exact ⟨hs.observed, fun now hpc => (hs.look now hpc).trans hnow, hs.enabled, hs.disabled⟩
  | _ => exact ⟨hs.observed.trans hforward.signal, hs.look, hs.enabled, hs.disabled⟩

variable {Fresh : (Bool → κ) → Prop}

/-- **What the driver read is never ahead.** -/
theorem reachable_clocked (hs : (system Fresh).Reachable s) :
    Clocked s := by
  induction hs with
  | init h =>
    have hdriver := h.1.driver
    refine ⟨?_, ?_, ?_, ?_⟩ <;> rw [hdriver]
    · exact Nat.zero_le _
    · intro now hpc
      cases hpc
    · exact fun hpc => hpc.elim
    · intro count hpc
      cases hpc
  | step _ h ih => exact Step.clocked h ih

/-! ### After a look -/

/-- What holds of a track from a look at revision `n` to the next. -/
structure Looked (video : Bool) (n : ℕ) (s : State κ) : Prop where
  enabled : (s.track video).enabled = true
  space : n ≤ s.space video
  stepping : ∀ now space, s.driver.video = video → s.driver.pc = .stepping now space → space = n
  blocked : (s.track video).outputBlocked = true → (s.track video).blockedRevision = n
  /-- A later notification is about to wake the driver, or it advanced the driver's signal after the driver
  read it. -/
  noticed : n < s.space video → s.driver.Past video →
    ((s.track video).outputBlocked = true ∨
      s.driver.video = video ∧ ∃ now space, s.driver.pc = .stepping now space) →
    s.driver.observed < s.signal ∨ 0 < s.notifying video

omit [Libav] [Converter κ] in
theorem Looked.not_skips {video : Bool} {n : ℕ} (hl : Looked video n s) (hspace : n < s.space video)
    (hblocked : (s.track video).outputBlocked = true) (now : ℤ) :
    (s.track video).skipsDelivery (s.space video) now = false := by
  have hne : s.space video ≠ (s.track video).blockedRevision := by
    rw [hl.blocked hblocked]
    omega
  simp [Track.skipsDelivery, hblocked, hne]

theorem DriverStep.stepping_other {shared : Shared} {d d' : Driver} {t t' : Track} {video : Bool}
    (h : DriverStep shared d t es d' t') (hv : d.video ≠ video) {now : ℤ} {space : ℕ}
    (hpc : d'.pc = .stepping now space) : d'.video ≠ video := by
  rcases h.delivery with ⟨_, -, -, -, rfl, -⟩ | ⟨_, -, -, -, rfl, -⟩ | ⟨_, _, _, -, -, rfl, -⟩ | ⟨-, hno, -, -, -⟩
  · exact hv
  · exact hv
  · exact hv
  · exact absurd hpc (hno now space)

theorem DriverStep.past {shared : Shared} {d d' : Driver} {t t' : Track} {video : Bool}
    (h : DriverStep shared d t es d' t') (hv : d.video ≠ video) (hpast : d'.Past video) : d.Past video := by
  rcases h.delivery with ⟨now, hpc, -, -, rfl, -⟩ | ⟨now, hpc, -, -, rfl, -⟩ |
    ⟨now, space, step, hpc, -, rfl, -⟩ | ⟨-, -, -, -, hback⟩
  · simp only [Driver.Past, hpc] at hpast ⊢
    cases video <;> simp_all
  · simp only [Driver.Past, hpc] at hpast ⊢
    cases video <;> simp_all
  · simp only [Driver.Past, hpc] at hpast ⊢
    exact hpast
  · rcases hback video hpast with hpast | ⟨hsame, -⟩
    · exact hpast
    · exact absurd hsame hv

omit [Converter κ] in
/-- A driver step at the other track. -/
theorem DriverStep.looked_other {video : Bool} {n : ℕ} {d : Driver} {t : Track} (hl : Looked video n s)
    (h : DriverStep s.shared s.driver (s.track s.driver.video) es d t) (hv : s.driver.video ≠ video) :
    Looked video n { s with driver := d, track := Function.update s.track s.driver.video t } := by
  have htrack : Function.update s.track s.driver.video t video = s.track video :=
    Function.update_of_ne (Ne.symm hv) _ _
  have hobserved : d.Past video → d.observed = s.driver.observed := by
    intro hpast
    cases h <;> first | rfl | exact False.elim hpast
  refine ⟨?_, hl.space, ?_, ?_, ?_⟩
  · exact (congrArg Track.enabled htrack).trans hl.enabled
  · intro now space hsame hpc
    exact absurd hsame (h.stepping_other hv hpc)
  · show (Function.update s.track s.driver.video t video).outputBlocked = true → _
    intro hblocked
    show (Function.update s.track s.driver.video t video).blockedRevision = n
    rw [htrack] at hblocked ⊢
    exact hl.blocked hblocked
  · intro hspace hpast hrejected
    show d.observed < s.signal ∨ 0 < s.notifying video
    rw [hobserved hpast]
    refine hl.noticed hspace (h.past hv hpast) (.inl ?_)
    rcases hrejected with hrejected | ⟨hsame, now, space, hpc⟩
    · rw [← htrack]
      exact hrejected
    · exact absurd hsame (h.stepping_other hv hpc)

omit [Libav] in
theorem Track.deliver_block (t : Track) (space : ℕ) (step : SyncerStep) (now : ℤ) :
    ((t.deliver space step now).outputBlocked = true →
      (t.deliver space step now).blockedRevision = space ∨
        t.outputBlocked = true ∧ (t.deliver space step now).blockedRevision = t.blockedRevision) ∧
    (step.blocked = true → (t.deliver space step now).outputBlocked = true ∧
      (t.deliver space step now).blockedRevision = space ∧
      (t.deliver space step now).outputRetryUs = now + kOutputRetryUs) := by
  unfold Track.deliver
  by_cases hblocked : step.blocked = true
  · simp [hblocked]
  · simp only [if_neg hblocked]
    split <;> exact ⟨fun h => .inr ⟨h, rfl⟩, fun h => absurd h hblocked⟩

omit [Converter κ] in
/-- A driver step at the track. -/
theorem DriverStep.looked_self {n : ℕ} {d : Driver} {t : Track} (hl : Looked s.driver.video n s)
    (hs : Clocked s) (h : DriverStep s.shared s.driver (s.track s.driver.video) es d t)
    (hes : ∀ space, .at s.driver.video (.looked space) ∉ es) :
    Looked s.driver.video n { s with driver := d, track := Function.update s.track s.driver.video t } := by
  have htrack : Function.update s.track s.driver.video t s.driver.video = t := Function.update_self ..
  have henabled : t.enabled = true := h.enabled.trans hl.enabled
  -- The four fields of the new state.
  suffices hnew : (∀ now space, d.pc = .stepping now space → space = n) ∧
      (t.outputBlocked = true → t.blockedRevision = n) ∧
      (n < s.space s.driver.video → d.Past s.driver.video →
        (t.outputBlocked = true ∨ ∃ now space, d.pc = .stepping now space) →
        d.observed < s.signal ∨ 0 < s.notifying s.driver.video) by
    obtain ⟨hstepping, hblocked, hnoticed⟩ := hnew
    refine ⟨?_, hl.space, fun now space _ hpc => hstepping now space hpc, ?_, ?_⟩
    · exact (congrArg Track.enabled htrack).trans henabled
    · show (Function.update s.track s.driver.video t s.driver.video).outputBlocked = true →
        (Function.update s.track s.driver.video t s.driver.video).blockedRevision = n
      rw [htrack]
      exact hblocked
    · intro hspace hpast hrejected
      refine hnoticed hspace hpast ?_
      rcases hrejected with hrejected | ⟨-, hpc⟩
      · left
        rw [← htrack]
        exact hrejected
      · exact .inr hpc
  rcases h.delivery with ⟨now, hpc, hskip, -, rfl, rfl⟩ | ⟨now, hpc, -, rfl, -, -⟩ |
    ⟨now, space, step, hpc, -, rfl, rfl⟩ | ⟨hno, hno', -, hsame, hback⟩
  · refine ⟨fun now space h => by (cases h), hl.blocked, fun hspace _ hrejected => ?_⟩
    rcases hrejected with hrejected | ⟨_, _, hrejected⟩
    · -- A notified track is not skipped.
      have hnot := hl.not_skips hspace hrejected now
      have hskip : (s.track s.driver.video).skipsDelivery (s.space s.driver.video) now = true := hskip
      rw [hnot] at hskip
      cases hskip
    · cases hrejected
  · exact absurd (List.mem_singleton.mpr rfl) (hes s.shared.space)
  · have hspace := hl.stepping now space rfl hpc
    refine ⟨fun now space h => by (cases h), fun hblocked => ?_, fun hspace hpast hrejected => ?_⟩
    · rcases (Track.deliver_block _ space step _).1 hblocked with hrevision | ⟨hold, hrevision⟩
      · rw [hrevision, hspace]
      · rw [hrevision]
        exact hl.blocked hold
    · refine hl.noticed hspace ?_ (.inr ⟨rfl, now, space, hpc⟩)
      simpa only [Driver.Past, hpc] using hpast
  · refine ⟨fun now space h => absurd h (hno' now space), fun hblocked => ?_, fun hspace hpast hrejected => ?_⟩
    · rw [hsame.blockedRevision]
      exact hl.blocked (hsame.outputBlocked.symm.trans hblocked)
    · have hobserved : d.observed = s.driver.observed := by
        cases h <;> first | rfl | exact False.elim hpast
      rw [hobserved]
      rcases hback _ hpast with hbefore | ⟨-, count, hpc⟩
      · refine hl.noticed hspace hbefore (.inl ?_)
        rcases hrejected with hrejected | ⟨now, space, hrejected⟩
        · exact hsame.outputBlocked.symm.trans hrejected
        · exact absurd hrejected (hno' now space)
      · have hdisabled := hs.disabled count hpc
        rw [hl.enabled] at hdisabled
        cases hdisabled

omit [Converter κ] in
theorem DriverStep.looked {video : Bool} {n : ℕ} {d : Driver} {t : Track} (hl : Looked video n s)
    (hs : Clocked s) (h : DriverStep s.shared s.driver (s.track s.driver.video) es d t)
    (hes : ∀ space, .at video (.looked space) ∉ es) :
    Looked video n { s with driver := d, track := Function.update s.track s.driver.video t } := by
  by_cases hv : s.driver.video = video
  · subst hv
    exact h.looked_self hl hs hes
  · exact h.looked_other hl hv

/-- **Between two looks.** -/
theorem Step.looked {video : Bool} {n : ℕ} (h : Step s es s') (hl : Looked video n s) (hs : Clocked s)
    (hes : ∀ space, .at video (.looked space) ∉ es) : Looked video n s' := by
  have hforward := h.forward
  cases h with
  | driver es d t h => exact h.looked hl hs hes
  | driverThrows e hpc =>
    unfold State.fail
    split <;>
      exact ⟨hl.enabled, hl.space, nofun, hl.blocked, fun _ hpast => False.elim hpast⟩
  | worker v es w t c h =>
    have hsame : SameBlock (s.track video) (Function.update s.track v t video) := by
      by_cases hv : video = v
      · subst hv
        rw [Function.update_self]
        exact h.sameBlock
      · rw [Function.update_of_ne hv]
        exact .refl _
    refine ⟨?_, hl.space, hl.stepping, ?_, ?_⟩
    · exact hsame.enabled.trans hl.enabled
    · intro hblocked
      exact hsame.blockedRevision.trans (hl.blocked (hsame.outputBlocked.symm.trans hblocked))
    · intro hspace hpast hrejected
      rw [show ({ s with
        worker := Function.update s.worker v w
        track := Function.update s.track v t
        converter := Function.update s.converter v c
        signal := if .signalled ∈ es then s.signal + 1 else s.signal } : State κ).track video =
          Function.update s.track v t video from rfl, hsame.outputBlocked] at hrejected
      rcases hl.noticed hspace hpast hrejected with hsignal | hnotifying
      · exact .inl (lt_of_lt_of_le hsignal hforward.signal)
      · exact .inr hnotifying
  | workerThrows v e hpc =>
    unfold State.fail
    split <;> exact ⟨hl.enabled, hl.space, hl.stepping, hl.blocked, hl.noticed⟩
  | notify v =>
    refine ⟨hl.enabled, hl.space.trans (hforward.space video), hl.stepping, hl.blocked, ?_⟩
    intro hspace hpast hrejected
    show s.driver.observed < s.signal ∨ 0 < Function.update s.notifying v (s.notifying v + 1) video
    by_cases hv : video = v
    · subst hv
      rw [Function.update_self]
      exact .inr (Nat.succ_pos _)
    · rw [Function.update_of_ne hv]
      refine hl.noticed ?_ hpast hrejected
      have hspace : n < Function.update s.space v (s.space v + 1) video := hspace
      rwa [Function.update_of_ne hv] at hspace
  | requestStop => exact ⟨hl.enabled, hl.space, hl.stepping, hl.blocked, hl.noticed⟩
  | time now hnow => exact ⟨hl.enabled, hl.space, hl.stepping, hl.blocked, hl.noticed⟩
  | _ =>
    -- The driver's signal advanced, so the driver is awake.
    exact ⟨hl.enabled, hl.space, hl.stepping, hl.blocked,
      fun _ _ _ => .inl (Nat.lt_succ_of_le hs.observed)⟩

/-! ### After a rejection -/

theorem Step.space {video : Bool} (h : Step s es s') (hes : .at video .notified ∉ es) :
    s'.space video = s.space video := by
  cases h
  case notify v =>
    have hv : video ≠ v := fun hv => hes (by rw [hv]; exact List.mem_singleton.mpr rfl)
    exact Function.update_of_ne hv _ _
  all_goals first
    | rfl
    | (unfold State.fail; split <;> rfl)

theorem Step.notified {video : Bool} (h : Step s es s') (hes : .at video .notified ∈ es) :
    s.space video < s'.space video := by
  cases h with
  | driver es d t h =>
    cases h <;> simp [itemEvent] at hes
  | worker v es w t c h =>
    cases h <;> simp [itemEvent] at hes
  | notify v =>
    obtain ⟨rfl, -⟩ := by simpa using hes
    show s.space video < Function.update s.space video (s.space video + 1) video
    rw [Function.update_self]
    omega
  | _ => simp at hes

/-- What holds of a track from a rejection to the next look, while nobody notifies it. -/
structure Resting (video : Bool) (retry : ℤ) (s : State κ) : Prop where
  outputBlocked : (s.track video).outputBlocked = true
  blockedRevision : (s.track video).blockedRevision = s.space video
  outputRetryUs : (s.track video).outputRetryUs = retry
  stepping : s.driver.video = video → ∀ now space, s.driver.pc ≠ .stepping now space

omit [Libav] [Converter κ] in
theorem Resting.of_sameBlock {video : Bool} {retry : ℤ} (hr : Resting video retry s)
    (hsame : SameBlock (s.track video) (s'.track video)) (hspace : s'.space video = s.space video)
    (hstepping : s'.driver.video = video → ∀ now space, s'.driver.pc ≠ .stepping now space) :
    Resting video retry s' where
  outputBlocked := hsame.outputBlocked.trans hr.outputBlocked
  blockedRevision := hsame.blockedRevision.trans (hr.blockedRevision.trans hspace.symm)
  outputRetryUs := hsame.outputRetryUs.trans hr.outputRetryUs
  stepping := hstepping

/-- **A rejected track rests.** -/
theorem Step.resting {video : Bool} {retry : ℤ} (h : Step s es s') (hr : Resting video retry s)
    (hes : ∀ space, .at video (.looked space) ∉ es) (hquiet : .at video .notified ∉ es) :
    Resting video retry s' := by
  have hspace := h.space hquiet
  cases h with
  | driver es d t h =>
    by_cases hv : s.driver.video = video
    · subst hv
      have hself : Function.update s.track s.driver.video t s.driver.video = t := Function.update_self ..
      rcases h.delivery with ⟨now, hpc, hskip, -, rfl, rfl⟩ | ⟨now, hpc, -, rfl, -, -⟩ |
        ⟨now, space, step, hpc, -, -, -⟩ | ⟨hno, hno', -, hsame, -⟩
      · refine hr.of_sameBlock ?_ hspace (fun _ now space h => by cases h)
        show SameBlock _ (Function.update s.track s.driver.video (s.track s.driver.video) s.driver.video)
        rw [hself]
        exact .refl _
      · exact absurd (List.mem_singleton.mpr rfl) (hes s.shared.space)
      · exact absurd hpc (hr.stepping rfl now space)
      · refine hr.of_sameBlock ?_ hspace (fun _ now space => hno' now space)
        show SameBlock _ (Function.update s.track s.driver.video t s.driver.video)
        rw [hself]
        exact hsame
    · refine hr.of_sameBlock ?_ hspace fun hsame now space hpc => h.stepping_other hv hpc hsame
      show SameBlock _ (Function.update s.track s.driver.video t video)
      rw [Function.update_of_ne (Ne.symm hv)]
      exact .refl _
  | driverThrows e hpc =>
    refine hr.of_sameBlock ?_ hspace fun _ now space h => by cases h
    show SameBlock _ ((s.fail e).track video)
    rw [State.fail_track]
    exact .refl _
  | worker v es w t c h =>
    refine hr.of_sameBlock ?_ hspace hr.stepping
    show SameBlock _ (Function.update s.track v t video)
    by_cases hv : video = v
    · subst hv
      rw [Function.update_self]
      exact h.sameBlock
    · rw [Function.update_of_ne hv]
      exact .refl _
  | workerThrows v e hpc =>
    refine hr.of_sameBlock ?_ hspace ?_
    · show SameBlock _ ((s.fail e).track video)
      rw [State.fail_track]
      exact .refl _
    · show (s.fail e).driver.video = video → _
      rw [State.fail_driver]
      exact hr.stepping
  | notify v => exact hr.of_sameBlock (.refl _) hspace hr.stepping
  | _ => exact hr.of_sameBlock (.refl _) hspace hr.stepping

/-! ### Whole runs -/

variable {Fresh : (Bool → κ) → Prop}

/-- The step of a look. -/
theorem Step.look {video : Bool} {n : ℕ} (h : Step s es s') (hmem : .at video (.looked n) ∈ es) :
    ∃ now, s.driver.video = video ∧ s.driver.pc = .look now ∧ s.space video = n ∧
      (s.track video).skipsDelivery n now = false ∧ s'.space video = n ∧
      s'.driver = { s.driver with pc := .stepping now n } ∧ (s'.track video).outputBlocked = false := by
  cases h with
  | driver es d t h =>
    cases h
    case look now hpc hskip =>
      obtain ⟨hv, hn⟩ := by simpa using hmem
      subst hv hn
      refine ⟨now, rfl, hpc, rfl, hskip, rfl, rfl, ?_⟩
      show (Function.update s.track s.driver.video _ s.driver.video).outputBlocked = false
      rw [Function.update_self]
    case dispatch => simp [itemEvent] at hmem
    all_goals simp at hmem
  | worker v es w t c h =>
    cases h <;> simp [itemEvent] at hmem
  | _ => simp at hmem

theorem looked_of_look {video : Bool} {n : ℕ} (hs : (system Fresh).Reachable s) (h : Step s es s')
    (hmem : .at video (.looked n) ∈ es) : Looked video n s' := by
  obtain ⟨now, hv, hpc, -, -, hspace, hdriver, hblocked⟩ := h.look hmem
  have henabled : (s.track video).enabled = true := by
    rw [← hv]
    exact (reachable_clocked hs).enabled (by rw [hpc]; trivial)
  refine ⟨(h.forward.enabled video).trans henabled, le_of_eq hspace.symm, ?_, ?_, ?_⟩
  · intro now' space _ hpc'
    rw [hdriver] at hpc'
    injection hpc' with _ hn
    exact hn.symm
  · intro hrejected
    rw [hblocked] at hrejected
    cases hrejected
  · intro hlt
    rw [hspace] at hlt
    exact absurd hlt (lt_irrefl n)

/-- A later state without another look. -/
theorem looked_run {video : Bool} {n : ℕ} {t : State κ} {fs : List Event} (hs : (system Fresh).Reachable s')
    (hl : Looked video n s') (hrun : (system Fresh).Run s' fs t) (hfs : ∀ k, .at video (.looked k) ∉ fs) :
    Looked video n t ∧ s'.space video ≤ t.space video ∧
      (.at video .notified ∈ fs → s'.space video < t.space video) ∧
      (.at video .notified ∉ fs → t.space video = s'.space video) := by
  induction hrun with
  | refl => exact ⟨hl, le_rfl, nofun, fun _ => rfl⟩
  | @snoc t u fs gs hrun hstep ih =>
    obtain ⟨hlt, hle, hnotified, hquiet⟩ := ih fun k hk => hfs k (List.mem_append_left _ hk)
    have hstep : Step t gs u := hstep
    have hforward := hstep.forward.space video
    refine ⟨hstep.looked hlt (reachable_clocked (hs.run hrun)) fun k hk => hfs k (List.mem_append_right _ hk),
      hle.trans hforward, fun hmem => ?_, fun hmem => ?_⟩
    · rcases List.mem_append.mp hmem with hmem | hmem
      · exact lt_of_lt_of_le (hnotified hmem) hforward
      · exact lt_of_le_of_lt hle (hstep.notified hmem)
    · rw [hstep.space fun h => hmem (List.mem_append_right _ h)]
      exact hquiet fun h => hmem (List.mem_append_left _ h)

theorem Step.signalled (h : Step s es s') (hmem : .signalled ∈ es) : s.signal < s'.signal := by
  cases h with
  | driver es d t h => cases h <;> simp [itemEvent] at hmem
  | worker v es w t c h =>
    show s.signal < if .signalled ∈ es then s.signal + 1 else s.signal
    rw [if_pos hmem]
    omega
  | notify v => simp at hmem
  | driverThrows | workerThrows | requestStop | time => simp at hmem
  | _ => exact Nat.lt_succ_self _

theorem Step.observed (h : Step s es s') (hmem : .observed ∉ es) :
    s'.driver.observed = s.driver.observed := by
  cases h with
  | driver es d t h => cases h <;> first | rfl | simp at hmem
  | driverThrows e hpc => rfl
  | workerThrows v e hpc =>
    show (s.fail e).driver.observed = _
    rw [State.fail_driver]
  | _ => rfl

/-- The step in which the syncer rejected. -/
theorem Step.rejected {video : Bool} {n : ℕ} {item : Option AvDecoderReadResult} {consumed : Bool}
    (h : Step s es s') (hmem : .at video (.stepped item consumed true) ∈ es) (hl : Looked video n s)
    (hspace : s.space video = n) : Resting video (s.now + kOutputRetryUs) s' := by
  cases h with
  | driver es d t h =>
    cases h
    case stepping now space step hpc =>
      obtain ⟨hv, -, -, hblocked⟩ := by simpa using hmem
      subst hv
      obtain ⟨hout, hrevision, hretry⟩ := (Track.deliver_block (s.track s.driver.video) space step s.now).2 hblocked
      have hself : ∀ t : Track, Function.update s.track s.driver.video t s.driver.video = t :=
        fun t => Function.update_self ..
      refine ⟨?_, ?_, ?_, fun _ now space h => by cases h⟩
      · show (Function.update s.track s.driver.video _ s.driver.video).outputBlocked = true
        rw [hself]
        exact hout
      · show (Function.update s.track s.driver.video _ s.driver.video).blockedRevision = s.space s.driver.video
        rw [hself, hspace, ← hl.stepping now space rfl hpc]
        exact hrevision
      · show (Function.update s.track s.driver.video _ s.driver.video).outputRetryUs = s.now + kOutputRetryUs
        rw [hself]
        exact hretry
    case dispatch => simp [itemEvent] at hmem
    all_goals simp at hmem
  | worker v es w t c h =>
    cases h <;> simp [itemEvent] at hmem
  | _ => simp at hmem

theorem resting_run {video : Bool} {retry : ℤ} {t : State κ} {fs : List Event} (hr : Resting video retry s')
    (hrun : (system Fresh).Run s' fs t) (hfs : ∀ k, .at video (.looked k) ∉ fs)
    (hquiet : .at video .notified ∉ fs) : Resting video retry t := by
  induction hrun with
  | refl => exact hr
  | @snoc t u fs gs hrun hstep ih =>
    have hrest := ih (fun k hk => hfs k (List.mem_append_left _ hk)) fun h => hquiet (List.mem_append_left _ h)
    exact Step.resting hstep hrest (fun k hk => hfs k (List.mem_append_right _ hk)) fun h =>
      hquiet (List.mem_append_right _ h)

/-- **No capacity notification is lost.**  `a` is the state after a look at a revision, `s` the state before.

First, when the output is rejected and the track is notified after the look, the next `Deliver` does not
return early, and a driver that waits is awake or `Notify` is still to wake it.  Second, a rejected track that
nobody notifies is not tried again before its deadline, whatever else happens.  Third, any notification after
the driver read its revision keeps it awake. -/
theorem notifications_kept (hs : (system Fresh).Reachable s) (video : Bool) :
    (∀ n es a fs t, Step s es a → .at video (.looked n) ∈ es → (system Fresh).Run a fs t →
      (∀ k, .at video (.looked k) ∉ fs) → .at video .notified ∈ fs → (t.track video).outputBlocked = true →
      (∀ now, (t.track video).skipsDelivery (t.space video) now = false) ∧
        (t.driver.pc = .waiting → t.Awake ∨ 0 < t.notifying video)) ∧
    (∀ n es a fs m item consumed gs b hs' t k is u, Step s es a → .at video (.looked n) ∈ es →
      (system Fresh).Run a fs m → (∀ k, .at video (.looked k) ∉ fs) → .at video .notified ∉ fs →
      Step m gs b → .at video (.stepped item consumed true) ∈ gs →
      (system Fresh).Run b hs' t → (∀ k, .at video (.looked k) ∉ hs') → .at video .notified ∉ hs' →
      Step t is u → .at video (.looked k) ∈ is → m.now + kOutputRetryUs ≤ t.now) ∧
    (∀ fs t, (system Fresh).Run s fs t → .observed ∉ fs → .signalled ∈ fs → t.Awake) := by
  refine ⟨?_, ?_, ?_⟩
  · intro n es a fs t hlook hmem hrun hfs hnotified hblocked
    have ha : (system Fresh).Reachable a := .step hs hlook
    obtain ⟨hl, -, hlater, -⟩ := looked_run ha (looked_of_look hs hlook hmem) hrun hfs
    have hspace : n < t.space video := by
      obtain ⟨_, -, -, -, -, hspace, -, -⟩ := Step.look hlook hmem
      rw [← hspace]
      exact hlater hnotified
    refine ⟨hl.not_skips hspace hblocked, fun hwaiting => ?_⟩
    have hpast : t.driver.Past video := by
      simp only [Driver.Past, hwaiting]
    rcases hl.noticed hspace hpast (.inl hblocked) with hsignal | hnotifying
    · exact .inl (.inl (ne_of_gt hsignal))
    · exact .inr hnotifying
  · intro n es a fs m item consumed gs b hs' t k is u hlook hmem hrun hfs hquiet hstep hrejected hrest hhs hquiet'
      hretry hlooked
    have ha : (system Fresh).Reachable a := .step hs hlook
    have hm := ha.run hrun
    have hb : (system Fresh).Reachable b := .step hm hstep
    obtain ⟨hl, -, -, hsame⟩ := looked_run ha (looked_of_look hs hlook hmem) hrun hfs
    obtain ⟨_, -, -, -, -, hspace, -, -⟩ := Step.look hlook hmem
    have hresting := Step.rejected hstep hrejected hl ((hsame hquiet).trans hspace)
    have ht := resting_run hresting hrest hhs hquiet'
    obtain ⟨now, hv, hpc, hk, hskip, -⟩ := Step.look hretry hlooked
    -- The look was not skipped although nobody notified: the deadline has come.
    have hdeadline : m.now + kOutputRetryUs ≤ now := by
      rw [← hk, ← ht.blockedRevision] at hskip
      have hnot : ¬now < (t.track video).outputRetryUs := by
        intro hlt
        simp [Track.skipsDelivery, ht.outputBlocked, hlt] at hskip
      rw [ht.outputRetryUs] at hnot
      exact not_lt.mp hnot
    exact hdeadline.trans ((reachable_clocked (hb.run hrest)).look now hpc)
  · intro fs t hrun hobserved hsignalled
    have hkept : t.driver.observed ≤ t.signal ∧ (.signalled ∈ fs → t.driver.observed < t.signal) := by
      clear hsignalled
      induction hrun with
      | refl => exact ⟨(reachable_clocked hs).observed, nofun⟩
      | @snoc t u fs gs hrun hstep ih =>
        have hstep : Step t gs u := hstep
        obtain ⟨hle, hlt⟩ := ih fun h => hobserved (List.mem_append_left _ h)
        have hsame := hstep.observed fun h => hobserved (List.mem_append_right _ h)
        have hforward := hstep.forward.signal
        refine ⟨by omega, fun hmem => ?_⟩
        rcases List.mem_append.mp hmem with hmem | hmem
        · have hbefore := hlt hmem
          omega
        · have hafter := hstep.signalled hmem
          omega
    exact .inl (ne_of_gt (hkept.2 hsignalled))

end

section

attribute [local instance] Libav.reference

/-- The driver in front of its first look at the video output. -/
def beforeLook : State Relay :=
  (Transition.replay execute (start (fun video => video) fun _ => {}) (List.replicate 5 (.driver {}))).2

def afterLook : State Relay := (execute beforeLook (.driver {})).2

/-- The callback notifies and rejects, and the driver goes on until it waits. -/
def notifiedRun : List Event × State Relay :=
  Transition.replay execute afterLook
    (.notify true :: .driver { step := { blocked := true } } :: List.replicate 13 (.driver {}) ++ [.notifyWake true])

def rejectedLook : State Relay := (execute afterLook (.driver { step := { blocked := true } })).2

/-- After a rejection the clock runs and the driver comes back to the look. -/
def restedRun : List Event × State Relay :=
  Transition.replay execute rejectedLook
    (List.replicate 13 (.driver {}) ++ [.time 20000] ++ List.replicate 6 (.driver {}))

/-- A notification inside the callback that rejects keeps the driver awake; without one the driver looks again
when 20 ms have passed. -/
theorem notifications_kept_callback :
    (notifiedRun.2.driver.pc = .waiting ∧ notifiedRun.2.Awake) ∧ afterLook.now + kOutputRetryUs ≤ restedRun.2.now := by
  have hs : (system fun _ => True).Reachable beforeLook :=
    .run (.init ⟨start_started _ _, trivial⟩) (execute_run (fun _ => True) _ _)
  obtain ⟨hkept, hrests, -⟩ := notifications_kept hs true
  have hlook : Step beforeLook [.at true (.looked 0)] afterLook := execute_step beforeLook (.driver {})
  have hmem : Event.at true (.looked 0) ∈ [Event.at true (.looked 0)] := List.mem_singleton.mpr rfl
  refine ⟨⟨by decide +kernel, ?_⟩, ?_⟩
  · have hrun : (system fun _ => True).Run afterLook notifiedRun.1 notifiedRun.2 :=
      execute_run (fun _ => True) afterLook _
    have hevents : notifiedRun.1 = [.at true .notified, .at true (.stepped none false true), .signalled] := by
      decide +kernel
    rw [hevents] at hrun
    obtain ⟨-, hwaits⟩ := hkept 0 _ _ _ _ hlook hmem hrun (by simp) (by simp) (by decide +kernel)
    rcases hwaits (by decide +kernel) with hwake | hnotifying
    · exact hwake
    · exact absurd hnotifying (by decide +kernel)
  · have hstep : Step afterLook [.at true (.stepped none false true)] rejectedLook :=
      execute_step afterLook (.driver { step := { blocked := true } })
    have hrun : (system fun _ => True).Run rejectedLook restedRun.1 restedRun.2 :=
      execute_run (fun _ => True) rejectedLook _
    have hevents : restedRun.1 = [.observed] := by decide +kernel
    rw [hevents] at hrun
    have hretry : Step restedRun.2 [.at true (.looked 0)] (execute restedRun.2 (.driver {})).2 :=
      execute_step restedRun.2 (.driver {})
    exact hrests 0 _ _ _ _ none false _ _ _ _ 0 _ _ hlook hmem (.refl afterLook) (by simp) (by simp) hstep
      (by simp) hrun (by simp) (by simp) hretry (by simp)

end

end MwStreamer.Scheduler
